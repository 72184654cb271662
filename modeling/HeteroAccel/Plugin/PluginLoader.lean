import HeteroAccel.Lib.OpenTable
import HeteroAccel.Lib.Transition

/-!
# The plugin loader

Plugins are shared libraries. `plugin_discover` probes the libraries of a directory, `plugin_load`
maps one into the process, validates it and calls its `pluginInitialize`, `plugin_execute` calls its
`pluginExecute`, and `plugin_unload` calls its `pluginShutdown` and releases the module. The loader
keeps one record for each path.

The dynamic linker of the platform is a table of shared open objects: a file that is mapped is not
mapped again, whatever path names it, and it is unmapped with its last reference. A file exports the
functions that were found when it was mapped. What a path names, what a directory lists and what the
functions of a plugin return are arguments of each call. A `Char` of a text is one byte of it.

The calls of `pluginInitialize`, `pluginExecute` and `pluginShutdown` are recorded in the order in
which they are made, with the module on which each of them is made.
-/

namespace HeteroAccel.Plugin

/-! ## The plugin ABI -/

/-- `AGR_PLUGIN_ERROR_NONE`. -/
def errorNone : UInt32 := 0

/-- `AGR_PLUGIN_ERROR_INIT_FAILED`. -/
def errorInitFailed : UInt32 := 1

/-- `AGR_PLUGIN_ERROR_INTERNAL`. -/
def errorInternal : UInt32 := 7

/-- `AGR_HOST_EXPECTED_ABI_VERSION`. -/
def hostExpectedAbiVersion : UInt32 := 1

/-- The states of a plugin, in the order in which it goes through them. -/
inductive PluginState where
  | discovered
  | validated
  | loaded
  | initialized
  | registered
  | ready
  | shuttingDown
  | unloaded
deriving DecidableEq

/-- What a plugin says of itself. -/
structure PluginIdentity where
  name : String := ""
  version : String := ""
  type : String := ""
  author : String := ""
  registryKey : String := ""

/-- The error of a call on a plugin. -/
structure PluginError where
  code : UInt32
  message : String

/-- What the discovery finds out about one file. -/
structure PluginDiscoveryResult where
  path : String
  filename : String
  identity : PluginIdentity := {}
  loadError : PluginError
  loadable : Bool

/-- Which of the entry points a file exports. -/
structure Exports where
  pluginGetAbiVersion : Bool := true
  pluginGetIdentity : Bool := true
  pluginInitialize : Bool := true
  pluginExecute : Bool := true
  pluginShutdown : Bool := true
  pluginGetCapabilities : Bool := true

/-- What a path names when the linker can map it: a file with its exports. -/
structure Library where
  file : ℕ
  exports : Exports := {}

/-- What the entry points return that `plugin_discover` and `plugin_load` call. -/
structure Answers where
  abiVersion : UInt32 := hostExpectedAbiVersion
  identityRc : Int32 := 0
  identity : PluginIdentity := {}
  capabilitiesRc : Int32 := 0
  capabilities : UInt32 := 0
  capabilityCount : UInt64 := 0
  initRc : Int32 := 0

/-- A call that is made into a module. -/
inductive ModuleCall where
  | pluginInitialize (rc : Int32)
  | pluginExecute (rc : Int32)
  | pluginShutdown
deriving DecidableEq

/-- A handle of the dynamic linker. -/
abbrev ModuleHandle := OpenHandle ℕ

/-! ## The state of the loader -/

/-- What the loader keeps of a plugin. -/
structure PluginInternalState where
  path : String := ""
  filename : String := ""
  moduleHandle : Option ModuleHandle := none
  abiVersion : UInt32 := 0
  identity : PluginIdentity := {}
  capabilities : UInt32 := 0
  capabilityCount : UInt64 := 0
  state : PluginState := .discovered
  lastErrorCode : UInt32 := errorNone
  lastErrorMessage : String := ""
  initialized : Bool := false
  loaded : Bool := false

/-- The loader: the plugins by their paths, and what it shares with the dynamic linker. -/
structure PluginLoader where
  pluginCache : KeyedMap String PluginInternalState := ∅
  /-- The files that are mapped. -/
  linker : OpenTable ℕ Exports := {}
  /-- The calls that were made into modules, from the first on. -/
  moduleCalls : List (ModuleHandle × ModuleCall) := []

/-- The last error of a plugin is replaced. -/
def PluginInternalState.setError (s : PluginInternalState) (code : UInt32) (msg : String) :
    PluginInternalState :=
  { s with lastErrorCode := code, lastErrorMessage := msg }

/-- What fits in a field of `cap` bytes, with the byte that ends it. -/
def copyToField (cap : ℕ) (src : String) : String := String.ofList (src.toList.take (cap - 1))

/-- The numbers of the states. -/
def PluginState.toInt : PluginState → ℤ
  | .discovered => 0
  | .validated => 1
  | .loaded => 2
  | .initialized => 3
  | .registered => 4
  | .ready => 5
  | .shuttingDown => 6
  | .unloaded => 7

/-- `validate_module`: the checks of a module that was mapped, with the record they leave. -/
def validateModule (exports : Exports) (answers : Answers) (s : PluginInternalState) :
    Bool × PluginInternalState :=
  if exports.pluginGetAbiVersion = false then
    (false, s.setError errorInitFailed
      "plugin does not export pluginGetAbiVersion (pre-ABI-v1 plugin)")
  else
    let s := { s with abiVersion := answers.abiVersion }
    if s.abiVersion ≠ hostExpectedAbiVersion then
      (false, s.setError errorInitFailed ("ABI version mismatch: plugin=" ++
        toString s.abiVersion ++ " host=" ++ toString hostExpectedAbiVersion))
    else if exports.pluginGetIdentity = false ∨ exports.pluginInitialize = false ∨
        exports.pluginExecute = false ∨ exports.pluginShutdown = false then
      (false, s.setError errorInitFailed ("missing required exports (pluginGetIdentity, " ++
        "pluginInitialize, pluginExecute, pluginShutdown)"))
    else if answers.identityRc ≠ 0 then
      (false, s.setError answers.identityRc.toUInt32 "pluginGetIdentity failed")
    else
      let s := { s with identity := answers.identity }
      let s :=
        if exports.pluginGetCapabilities = true ∧ answers.capabilitiesRc = 0 then
          { s with
            capabilities := answers.capabilities
            capabilityCount := answers.capabilityCount }
        else s
      (true, s.setError errorNone "OK")

/-- The record of a plugin whose module is not kept. -/
def PluginInternalState.refused (s : PluginInternalState) (code : UInt32) (msg : String) :
    PluginInternalState :=
  { s with moduleHandle := none, state := .unloaded }.setError code msg

namespace PluginLoader

/-- A call is made into a module. -/
def record (l : PluginLoader) (h : ModuleHandle) (call : ModuleCall) : PluginLoader :=
  { l with moduleCalls := l.moduleCalls ++ [(h, call)] }

/-- The record of a path is written. -/
def put (l : PluginLoader) (path : String) (s : PluginInternalState) : PluginLoader :=
  { l with pluginCache := l.pluginCache.insert path s }

/-! ## Discovery -/

/-- Whether a directory entry is a shared library by its name. -/
def isPlugin (filename : String) : Bool :=
  decide (filename.length > 3) && filename.endsWith ".so"

/-- The probe of one library: mapped, validated and released. -/
def probe (l : PluginLoader) (fullPath filename : String) (library : Option Library)
    (answers : Answers) : PluginDiscoveryResult × PluginLoader :=
  let result : PluginDiscoveryResult :=
    { path := copyToField 512 fullPath
      filename := copyToField 256 filename
      loadable := false
      loadError := ⟨errorInternal, copyToField 256 "unknown"⟩ }
  match library with
  | none =>
    ({ result with
        loadError := ⟨errorInitFailed, copyToField 256
          "dlopen/LoadLibrary failed (not a valid shared library or dependency missing)"⟩ }, l)
  | some library =>
    let (mod, linker) := l.linker.acquire library.file library.exports
    let (ok, probe) := validateModule ((linker.content? mod).getD library.exports) answers
      { path := fullPath, filename }
    let result : PluginDiscoveryResult :=
      if ok then
        { result with
          loadable := true
          loadError := ⟨errorNone, copyToField 256 "OK"⟩
          identity :=
            { name := copyToField 64 probe.identity.name
              version := copyToField 32 probe.identity.version
              type := copyToField 32 probe.identity.type
              author := copyToField 64 probe.identity.author
              registryKey := copyToField 64 probe.identity.registryKey } }
      else
        { result with
          loadError := ⟨probe.lastErrorCode, copyToField 256 probe.lastErrorMessage⟩ }
    (result, { l with linker := linker.release mod })

/-- What the loader notes of a probe: a new record, or the error of a plugin that is not loaded. -/
def note (l : PluginLoader) (fullPath filename : String) (error : PluginError) : PluginLoader :=
  match l.pluginCache.lookup fullPath with
  | none =>
    l.put fullPath
      { path := fullPath
        filename
        state := .discovered
        lastErrorCode := error.code
        lastErrorMessage := error.message }
  | some s => if s.loaded = false then l.put fullPath (s.setError error.code error.message) else l

/-- A file of the plugin directory. -/
structure DirEntry where
  filename : String
  library : Option Library
  answers : Answers

/-- The turn of the loop of `plugin_discover` for one directory entry. -/
def discoverEntry (pluginDir : String) (acc : List PluginDiscoveryResult × PluginLoader)
    (entry : DirEntry) : List PluginDiscoveryResult × PluginLoader :=
  if isPlugin entry.filename = false then acc
  else
    let fullPath := pluginDir ++ "/" ++ entry.filename
    let (result, l) := acc.2.probe fullPath entry.filename entry.library entry.answers
    (acc.1 ++ [result], l.note fullPath entry.filename result.loadError)

/-- `plugin_discover`. There are no entries when the directory cannot be opened. -/
def pluginDiscover (l : PluginLoader) (pluginDir : String) (entries : Option (List DirEntry)) :
    List PluginDiscoveryResult × PluginLoader :=
  match entries with
  | none => ([], l)
  | some entries => entries.foldl (discoverEntry pluginDir) ([], l)

/-! ## Loading, executing and unloading -/

/-- The name after the last separator of a path. -/
def filenameOf (path : String) : String :=
  String.ofList (path.toList.reverse.takeWhile fun c => c ≠ '/' ∧ c ≠ '\\').reverse

/-- `plugin_load` from where the record of the path is written. -/
def loadInto (l : PluginLoader) (path : String) (library : Option Library) (answers : Answers)
    (s : PluginInternalState) : ℤ × PluginLoader :=
  let s := { s with path, filename := filenameOf path }
  match library with
  | none => (-1, l.put path (s.refused errorInitFailed ("Failed to load module: " ++ path)))
  | some library =>
    let (mod, linker) := l.linker.acquire library.file library.exports
    let (ok, s) := validateModule ((linker.content? mod).getD library.exports) answers s
    if ok = false then
      (-1, { l with linker := linker.release mod }.put path
        (s.refused s.lastErrorCode s.lastErrorMessage))
    else
      let s := { s with moduleHandle := some mod, state := .loaded, loaded := true }
      let rc := answers.initRc
      -- a plugin whose initialization fails stays loaded
      let s :=
        if rc = 0 then
          { s with initialized := true, state := .initialized }.setError errorNone "OK"
        else
          { s with initialized := false, state := .loaded }.setError rc.toUInt32
            ("pluginInitialize failed with code " ++ toString rc)
      (s.state.toInt, ({ l with linker }.record mod (.pluginInitialize rc)).put path s)

/-- `plugin_load`. A plugin that is loaded is left as it is. -/
def pluginLoad (l : PluginLoader) (path : String) (library : Option Library) (answers : Answers) :
    ℤ × PluginLoader :=
  match l.pluginCache.lookup path with
  | some s => if s.loaded = true then (s.state.toInt, l) else l.loadInto path library answers s
  | none => l.loadInto path library answers {}

/-- `GET_PROC`: the module in which an entry point is found. -/
def getProc (l : PluginLoader) (mod : Option ModuleHandle) (entryPoint : Exports → Bool) :
    Option ModuleHandle :=
  mod.filter fun h => (l.linker.content? h).any entryPoint

/-- `plugin_execute`, where `pluginExecute` returns `rc`. It asks whether the plugin is loaded, not
whether it is initialized. -/
def pluginExecute (l : PluginLoader) (path : String) (rc : Int32) : ℤ × PluginLoader :=
  match l.pluginCache.lookup path with
  | none => (-1, l)
  | some s =>
    if s.loaded = false then (-1, l)
    else
      match l.getProc s.moduleHandle Exports.pluginExecute with
      | none => (-1, l.put path (s.setError errorInitFailed "pluginExecute export disappeared"))
      | some mod =>
        let l := l.record mod (.pluginExecute rc)
        if rc.toUInt32 ≠ errorNone then
          (rc.toInt, l.put path (s.setError rc.toUInt32
            ("pluginExecute failed with code " ++ toString rc.toUInt32)))
        else (rc.toInt, l)

/-- The call of `pluginShutdown` in `plugin_unload`. -/
def shutDown (l : PluginLoader) (s : PluginInternalState) : PluginLoader × PluginInternalState :=
  if s.initialized = true ∧ s.moduleHandle ≠ none then
    match l.getProc s.moduleHandle Exports.pluginShutdown with
    | some mod => (l.record mod .pluginShutdown, { s with initialized := false })
    | none => (l, { s with initialized := false })
  else (l, s)

/-- The release of the module in `plugin_unload`. -/
def freeModule (l : PluginLoader) (s : PluginInternalState) : PluginLoader × PluginInternalState :=
  match s.moduleHandle with
  | some mod => ({ l with linker := l.linker.release mod }, { s with moduleHandle := none })
  | none => (l, s)

/-- `plugin_unload`. -/
def pluginUnload (l : PluginLoader) (path : String) : PluginLoader :=
  match l.pluginCache.lookup path with
  | none => l
  | some s =>
    if s.loaded = false ∧ s.moduleHandle = none then l.put path { s with state := .unloaded }
    else
      let (l, s) := l.shutDown s
      let (l, s) := l.freeModule s
      l.put path { s with loaded := false, state := .unloaded }

/-! ## Runs of calls -/

/-- A call of the interface. -/
inductive Call where
  | pluginDiscover (pluginDir : String) (entries : Option (List DirEntry))
  | pluginLoad (path : String) (library : Option Library) (answers : Answers)
  | pluginExecute (path : String) (rc : Int32)
  | pluginUnload (path : String)

/-- The loader after a call. -/
def next (l : PluginLoader) : Call → PluginLoader
  | .pluginDiscover pluginDir entries => (l.pluginDiscover pluginDir entries).2
  | .pluginLoad path library answers => (l.pluginLoad path library answers).2
  | .pluginExecute path rc => (l.pluginExecute path rc).2
  | .pluginUnload path => l.pluginUnload path

/-- The calls, from the start of the process. -/
def calls : TransitionSystem PluginLoader Call where
  Init l := l = {}
  Step l call l' := l' = l.next call

end PluginLoader
end HeteroAccel.Plugin
