import Connio.Event
import Connio.Lib.Transition

/-!
# Allocating and freeing handles

`ConnHandleAllocEx` and `ConnHandleFree` (`connio.c`) with `SocketLibStart` and `SocketLibStop` (`sockcommon.c`): the
use count and the event engine of the socket library, the list of handles, the thread engines that handles share, and
the memory of each handle.  What the system and other libraries answer is part of the call.

* `Library`, `ConnHandlePriv`, `Resource` — the globals, and what has been allocated and not freed;
* `threadEngineSet`, `threadEngineClear` — the thread engines, for both roles;
* `connHandleAllocEx`, `connHandleFree`, `libraryStep` — the calls, in any order;
* `Restored` — a call that returns NULL leaves everything as it was;
* `Counted` — the use count, the event engine and the thread engines go with the handles;
* `AllocEnv.Suffices` — the answers with which an allocation succeeds;
* `reachable_counted` — **PROVED**: it is so as long as allocations fail at their arguments only, and a call that fails
  later restores nothing;
* `restored_fails` — **PROVED**: the use count after an allocation without memory.
-/

namespace Connio

open Connio.Lib

/-! ### The library -/

def connHandleSslClientEnabled : ℕ := 0x01
def connHandleSslServerEnabled : ℕ := 0x02
def connHandleAsyncEnabled : ℕ := 0x10
def connHandleSslEnabled : ℕ := connHandleSslClientEnabled ||| connHandleSslServerEnabled
def connHandleFlags : ℕ := connHandleSslEnabled ||| connHandleAsyncEnabled

/-- What a thread engine is for: `threadEngine.internal` or `threadEngine.defaultConsumer`. -/
inductive EngineRole where
  | internal
  | defaultConsumer
  deriving DecidableEq, Repr

/-- An `AThreadEngine`: the library has created it, or the consumer has. -/
inductive AThreadEngine where
  | created (n : ℕ)
  | supplied (n : ℕ)
  deriving DecidableEq, Repr

/-- What a consumer asks for. -/
structure ConnHandleConfig where
  /-- `connCache.minimum` -/
  minimum : ℕ := 0
  /-- `connCache.maximum` -/
  maximum : ℕ := 0
  /-- `threadEngine` -/
  engines : EngineRole → Option ℕ := fun _ => none

structure ConnHandlePriv where
  /-- `flags.fixed` -/
  flags : ℕ := 0
  /-- `threadEngine` -/
  engines : EngineRole → Option AThreadEngine := fun _ => none

/-- What is allocated for a handle, or for a thread engine. -/
inductive Resource where
  | handle (h : ℕ)
  | identity (h : ℕ)
  /-- `sslv23.client` -/
  | sslv23 (h : ℕ)
  /-- `tls.client` -/
  | tls (h : ℕ)
  | cache (h : ℕ)
  | engineContext (n : ℕ)
  | engine (n : ℕ)
  deriving DecidableEq, Repr

/-- `SockLib` and `ConnIO`. -/
structure Library where
  /-- `SockLib.useCount` -/
  useCount : ℕ := 0
  /-- `SockLib.ssl.enabled` -/
  sslEnabled : Bool := false
  /-- `SockLib.eventEngine` is not NULL -/
  eventEngine : Bool := false
  /-- `sockCreatorStart` has been called, and `sockCreatorStop` has not -/
  creator : Bool := false
  /-- `ConnIO.state` is `CONNIO_STATE_RUNNING` -/
  running : Bool := false
  /-- `ConnIO.handles` -/
  handles : List ℕ := []
  /-- `ConnIO.threadEngine` -/
  engines : EngineRole → Option AThreadEngine := fun _ => none
  record : ℕ → ConnHandlePriv := fun _ => {}
  /-- what has been allocated and not freed -/
  held : Resource → Bool := fun _ => false
  /-- the handles and the thread engines that have been allocated so far, and the engines destroyed -/
  named : ℕ := 0
  created : ℕ := 0
  destroyed : List AThreadEngine := []

namespace Library

variable (lib : Library)

def hold (r : Resource) : Library := { lib with held := Function.update lib.held r true }

def release (r : Resource) : Library := { lib with held := Function.update lib.held r false }

end Library

/-- What the system and other libraries answer during `ConnHandleAllocEx`. -/
structure AllocEnv where
  /-- `SocketEventEngineAlloc` -/
  eventEngine : Bool := true
  /-- `MemMalloc` of the handle, and in `CopyIdentity` -/
  handle : Bool := true
  identity : Bool := true
  /-- `CreateClientContext` -/
  sslv23 : Bool := true
  tls : Bool := true
  /-- `AThreadDefaultCreateContext` and `AThreadEngineCreate` -/
  engineContext : EngineRole → Bool := fun _ => true
  engine : EngineRole → Bool := fun _ => true
  /-- `MMPoolAlloc` -/
  cache : Bool := true

/-- `SocketLibStart` -/
def socketLibStart (lib : Library) (flags : ℕ) (env : AllocEnv) : Library × Bool :=
  let lib := { lib with
    useCount := lib.useCount + 1
    creator := lib.creator || lib.useCount = 0
    sslEnabled := lib.sslEnabled || flags &&& connHandleSslEnabled ≠ 0 }
  if flags &&& connHandleAsyncEnabled ≠ 0 ∧ lib.eventEngine = false then
    ({ lib with eventEngine := env.eventEngine }, env.eventEngine)
  else (lib, true)

/-- `SocketLibStop` -/
def socketLibStop (lib : Library) : Library :=
  if lib.useCount - 1 = 0 then { lib with useCount := lib.useCount - 1, creator := false, eventEngine := false }
  else { lib with useCount := lib.useCount - 1 }

/-! ### The thread engines -/

/-- `AThreadEngineDestroy`, which frees the context too -/
def athreadEngineDestroy (lib : Library) (e : AThreadEngine) : Library :=
  match e with
  | .created n => { (lib.release (.engine n)).release (.engineContext n) with destroyed := e :: lib.destroyed }
  | .supplied _ => { lib with destroyed := e :: lib.destroyed }

/-- A thread engine is created. -/
def Library.create (lib : Library) : Library :=
  { (lib.hold (.engineContext lib.created)).hold (.engine lib.created) with created := lib.created + 1 }

/-- `internalThreadEngineSet` and `defaultConsumerThreadEngineSet`; no engine on an error. -/
def threadEngineSet (lib : Library) (role : EngineRole) (config : Option ConnHandleConfig) (env : AllocEnv) :
    Library × Option AThreadEngine :=
  match config.bind fun config => config.engines role with
  | some n => (lib, some (.supplied n))
  | none =>
    match lib.engines role with
    | some e => (lib, some e)
    | none =>
      if env.engineContext role then
        if env.engine role then (lib.create, some (.created lib.created))
        else ((lib.hold (.engineContext lib.created)).release (.engineContext lib.created), none)
      else (lib, none)

/-- `internalThreadEngineClear` and `defaultConsumerThreadEngineClear` -/
def threadEngineClear (lib : Library) (role : EngineRole) (config : Option ConnHandleConfig)
    (current : Option AThreadEngine) : Library :=
  match current with
  | none => lib
  | some e =>
    if (config.bind fun config => config.engines role).map .supplied = some e then lib
    else if lib.engines role = some e then lib
    else athreadEngineDestroy lib e

def internalThreadEngineSet (lib : Library) := threadEngineSet lib .internal
def defaultConsumerThreadEngineSet (lib : Library) := threadEngineSet lib .defaultConsumer
def internalThreadEngineClear (lib : Library) := threadEngineClear lib .internal
def defaultConsumerThreadEngineClear (lib : Library) := threadEngineClear lib .defaultConsumer

/-- The thread engines of an asynchronous handle; none on an error. -/
def setThreadEngines (lib : Library) (config : Option ConnHandleConfig) (env : AllocEnv) :
    Library × Option (EngineRole → Option AThreadEngine) :=
  match internalThreadEngineSet lib config env with
  | (lib, none) =>
    (internalThreadEngineClear (defaultConsumerThreadEngineClear lib config none) config none, none)
  | (lib, some internal) =>
    match defaultConsumerThreadEngineSet lib config env with
    | (lib, none) =>
      (internalThreadEngineClear (defaultConsumerThreadEngineClear lib config none) config (some internal), none)
    | (lib, some defaultConsumer) =>
      (lib, some fun role => match role with
        | .internal => some internal
        | .defaultConsumer => some defaultConsumer)

/-! ### `ConnHandleAllocEx` -/

/-- The part of `l` behind the last `c`; all of it when there is none. -/
def afterLast (c : Char) (l : List Char) : List Char := (l.reverse.takeWhile (· ≠ c)).reverse

/-- `CopyIdentity`, without the memory: the name of the file, without `.c`; no copy is made of an empty name. -/
def copyIdentity (identity : List Char) : Option (List Char) :=
  let start := if '/' ∈ identity then afterLast '/' identity else afterLast '\\' identity
  let name := if ['.', 'c'].isSuffixOf start then start.dropLast.dropLast else start
  if name = [] then none else some name

/-- `connCacheInit`; the `errno` on an error. -/
def connCacheInit (lib : Library) (h : ℕ) (identity : List Char) (config : Option ConnHandleConfig) (env : AllocEnv) :
    Library × Option Errno :=
  if config.any fun config => ¬ (config.minimum = 0 ∧ config.maximum = 0) ∧
      (config.minimum < 1 ∨ config.maximum < config.minimum) then
    (lib, some Errno.einval)
  else if identity.length ≥ 256 - 16 then (lib, some Errno.emsgsize)
  else if env.cache then (lib.hold (.cache h), none)
  else (lib, some 0)

/-- The contexts of an SSL client. -/
def createClientContexts (lib : Library) (h : ℕ) (env : AllocEnv) : Library × Bool :=
  if env.sslv23 then
    if env.tls then ((lib.hold (.sslv23 h)).hold (.tls h), true)
    else ((lib.hold (.sslv23 h)).release (.sslv23 h), false)
  else (lib, false)

/-- `SSL_CTX_free` of the contexts that there are. -/
def freeClientContexts (lib : Library) (h : ℕ) : Library := (lib.release (.sslv23 h)).release (.tls h)

/-- `MemFree` of the handle. -/
def freeHandle (lib : Library) (h : ℕ) : Library := (lib.release (.identity h)).release (.handle h)

/-- `ConnHandleRemember` -/
def connHandleRemember (lib : Library) (h : ℕ) (handle : ConnHandlePriv) (config : Option ConnHandleConfig) :
    Library :=
  { lib with
    handles := lib.handles ++ [h]
    record := Function.update lib.record h handle
    engines := fun role =>
      if lib.engines role = none ∧ (config.bind fun config => config.engines role) = none then handle.engines role
      else lib.engines role }

structure AllocArgs where
  identity : Option (List Char)
  flags : ℕ := 0
  config : Option ConnHandleConfig := none
  /-- `validFileAndLine( file, line )` -/
  source : Bool := true

def AllocArgs.sslClient (args : AllocArgs) : Bool := args.flags &&& connHandleSslClientEnabled ≠ 0
def AllocArgs.async (args : AllocArgs) : Bool := args.flags &&& connHandleAsyncEnabled ≠ 0

/-- The thread engines of a handle, which has none when it is not asynchronous. -/
def engineStage (lib : Library) (args : AllocArgs) (env : AllocEnv) :
    Library × Option (EngineRole → Option AThreadEngine) :=
  if args.async then setThreadEngines lib args.config env else (lib, some fun _ => none)

/-- `ConnHandleAllocEx` from the allocation of the thread engines on. -/
def finishHandle (lib : Library) (h : ℕ) (identity : List Char) (args : AllocArgs) (env : AllocEnv) :
    Library × Option ℕ × Errno :=
  match engineStage lib args env with
  | (lib, none) => (freeHandle (freeClientContexts lib h) h, none, Errno.eperm)
  | (lib, some e) =>
    match connCacheInit lib h identity args.config env with
    | (lib, some err) => (freeHandle (freeClientContexts lib h) h, none, err)
    | (lib, none) => (connHandleRemember lib h { flags := args.flags, engines := e } args.config, some h, 0)

/-- The contexts of a handle, which has none when it is no SSL client. -/
def contextStage (lib : Library) (h : ℕ) (args : AllocArgs) (env : AllocEnv) : Library × Bool :=
  if args.sslClient then createClientContexts lib h env else (lib, true)

/-- `ConnHandleAllocEx` from the allocation of the handle on. -/
def allocHandle (lib : Library) (identity : List Char) (args : AllocArgs) (env : AllocEnv) :
    Library × Option ℕ × Errno :=
  if env.handle then
    let h := lib.named
    let lib := { lib.hold (.handle h) with named := lib.named + 1 }
    match copyIdentity identity with
    | some name =>
      if env.identity then
        match contextStage (lib.hold (.identity h)) h args env with
        | (lib, true) => finishHandle lib h name args env
        | (lib, false) => (freeHandle lib h, none, 0)
      else (lib.release (.handle h), none, 0)
    | none => (lib.release (.handle h), none, 0)
  else (lib, none, 0)

/-- The arguments pass the checks. -/
def AllocArgs.Valid (args : AllocArgs) : Prop :=
  args.identity ≠ none ∧ args.flags ||| connHandleFlags = connHandleFlags ∧ args.source = true

instance (args : AllocArgs) : Decidable args.Valid := inferInstanceAs (Decidable (_ ∧ _ ∧ _))

/-- `ConnHandleAllocEx`, with the handle and the `errno` that it returns -/
def connHandleAllocEx (lib : Library) (args : AllocArgs) (env : AllocEnv) : Library × Option ℕ × Errno :=
  match args.identity with
  | none => (lib, none, Errno.einval)
  | some identity =>
    if args.flags ||| connHandleFlags ≠ connHandleFlags then (lib, none, Errno.einval)
    else if args.source = false then (lib, none, Errno.einval)
    else
      match socketLibStart { lib with running := true } args.flags env with
      | (lib, false) => (lib, none, 0)
      | (lib, true) => allocHandle lib identity args env

/-! ### `ConnHandleFree` -/

/-- The thread engine of a role is destroyed. -/
def forgetEngine (lib : Library) (role : EngineRole) : Library :=
  match lib.engines role with
  | some e => { athreadEngineDestroy lib e with engines := Function.update lib.engines role none }
  | none => lib

/-- `ConnHandleForget` -/
def connHandleForget (lib : Library) (h : ℕ) : Library :=
  let lib := { lib with handles := lib.handles.erase h }
  if lib.handles = [] then forgetEngine (forgetEngine lib .internal) .defaultConsumer else lib

/-- `ConnHandleFree` -/
def connHandleFree (lib : Library) (h : ℕ) : Library :=
  let lib := (socketLibStop (connHandleForget lib h)).release (.cache h)
  freeHandle (freeClientContexts lib h) h

inductive LibraryAction where
  | alloc (args : AllocArgs) (env : AllocEnv)
  | free (h : ℕ)

/-- **One call;** `none` when the handle is not there. -/
def libraryStep (lib : Library) : LibraryAction → Option Library
  | .alloc args env => some (connHandleAllocEx lib args env).1
  | .free h => if h ∈ lib.handles then some (connHandleFree lib h) else none

/-! ### What the calls are to keep -/

/-- **Everything is as it was before the call.** -/
structure Restored (lib lib' : Library) : Prop where
  useCount : lib'.useCount = lib.useCount
  handles : lib'.handles = lib.handles
  engines : lib'.engines = lib.engines
  held : lib'.held = lib.held

/-- The call is `ConnHandleAllocEx`, and returns NULL. -/
def LibraryAction.Fails (lib : Library) : LibraryAction → Prop
  | alloc args env => (connHandleAllocEx lib args env).2.1 = none
  | free _ => False

/-- What is allocated belongs to a handle, or is a thread engine that is registered. -/
def Resource.Owned (lib : Library) : Resource → Prop
  | handle h | identity h | cache h => h ∈ lib.handles
  | sslv23 h | tls h => h ∈ lib.handles ∧ (lib.record h).flags &&& connHandleSslClientEnabled ≠ 0
  | engineContext n | engine n => ∃ role, lib.engines role = some (.created n)

/-- **The resources of the library are counted:** by its handles. -/
structure Counted (lib : Library) : Prop where
  useCount : lib.useCount = lib.handles.length
  eventEngine : lib.eventEngine = true → lib.handles ≠ []
  async : ∀ h ∈ lib.handles, (lib.record h).flags &&& connHandleAsyncEnabled ≠ 0 → lib.eventEngine = true
  /-- a thread engine is destroyed once, after its last handle, and only when the library has created it -/
  once : lib.destroyed.Nodup
  own : ∀ e ∈ lib.destroyed, ∃ n < lib.created, e = .created n
  last : ∀ e ∈ lib.destroyed, ∀ h ∈ lib.handles, ∀ role, (lib.record h).engines role ≠ some e
  all : lib.handles = [] → ∀ n < lib.created, .created n ∈ lib.destroyed
  owned : ∀ r, lib.held r = true ↔ r.Owned lib

/-- `config` supplies an engine, there is one, or one can be created. -/
def AllocEnv.Engines (env : AllocEnv) (lib : Library) (config : Option ConnHandleConfig) (role : EngineRole) : Prop :=
  (config.bind fun config => config.engines role) ≠ none ∨ lib.engines role ≠ none ∨
    env.engineContext role = true ∧ env.engine role = true

/-- **The answers with which an allocation succeeds.** -/
structure AllocEnv.Suffices (env : AllocEnv) (lib : Library) (args : AllocArgs) : Prop where
  eventEngine : args.async = true → lib.eventEngine = true ∨ env.eventEngine = true
  handle : env.handle = true
  name : ∃ name, args.identity.bind copyIdentity = some name ∧ name.length < 256 - 16
  identity : env.identity = true
  contexts : args.sslClient = true → env.sslv23 = true ∧ env.tls = true
  engines : args.async = true → ∀ role, env.Engines lib args.config role
  config : ∀ config, args.config = some config → config.minimum = 0 ∧ config.maximum = 0 ∨
    1 ≤ config.minimum ∧ config.minimum ≤ config.maximum
  cache : env.cache = true

/-- **An allocation is complete:** it fails at its arguments, or not at all. -/
def LibraryAction.Complete (lib : Library) : LibraryAction → Prop
  | alloc args env => args.Valid → env.Suffices lib args
  | free _ => True

/-! ### What each piece does -/

section Pieces

variable {lib lib' : Library} {config : Option ConnHandleConfig} {env : AllocEnv} {role : EngineRole}

/-- What a piece of `ConnHandleAllocEx` leaves alone. -/
structure Library.Kept (lib lib' : Library) : Prop where
  useCount : lib'.useCount = lib.useCount
  eventEngine : lib'.eventEngine = lib.eventEngine
  handles : lib'.handles = lib.handles
  engines : lib'.engines = lib.engines
  record : lib'.record = lib.record

theorem Library.Kept.refl (lib : Library) : lib.Kept lib := ⟨rfl, rfl, rfl, rfl, rfl⟩

theorem Library.Kept.trans {lib'' : Library} (h : lib.Kept lib') (h' : lib'.Kept lib'') : lib.Kept lib'' :=
  ⟨h'.useCount.trans h.useCount, h'.eventEngine.trans h.eventEngine, h'.handles.trans h.handles,
    h'.engines.trans h.engines, h'.record.trans h.record⟩

theorem hold_kept (lib : Library) (r : Resource) : lib.Kept (lib.hold r) := ⟨rfl, rfl, rfl, rfl, rfl⟩

theorem release_kept (lib : Library) (r : Resource) : lib.Kept (lib.release r) := ⟨rfl, rfl, rfl, rfl, rfl⟩

theorem create_kept (lib : Library) : lib.Kept lib.create := ⟨rfl, rfl, rfl, rfl, rfl⟩

theorem athreadEngineDestroy_kept (lib : Library) (e : AThreadEngine) : lib.Kept (athreadEngineDestroy lib e) := by
  cases e <;> exact ⟨rfl, rfl, rfl, rfl, rfl⟩

theorem freeHandle_kept (lib : Library) (h : ℕ) : lib.Kept (freeHandle lib h) := ⟨rfl, rfl, rfl, rfl, rfl⟩

theorem freeClientContexts_kept (lib : Library) (h : ℕ) : lib.Kept (freeClientContexts lib h) :=
  ⟨rfl, rfl, rfl, rfl, rfl⟩

theorem threadEngineSet_kept : lib.Kept (threadEngineSet lib role config env).1 := by
  unfold threadEngineSet
  split
  · exact .refl lib
  · split
    · exact .refl lib
    · split
      · split
        · exact create_kept lib
        · exact (hold_kept lib _).trans (release_kept _ _)
      · exact .refl lib

theorem threadEngineClear_kept (lib : Library) (role : EngineRole) (config : Option ConnHandleConfig)
    (current : Option AThreadEngine) : lib.Kept (threadEngineClear lib role config current) := by
  unfold threadEngineClear
  split
  · exact .refl lib
  · split
    · exact .refl lib
    · split
      · exact .refl lib
      · exact athreadEngineDestroy_kept lib _

theorem setThreadEngines_kept : lib.Kept (setThreadEngines lib config env).1 := by
  have hinternal : lib.Kept (internalThreadEngineSet lib config env).1 := threadEngineSet_kept
  unfold setThreadEngines
  split
  next lib₁ heq =>
    rw [heq] at hinternal
    exact hinternal
  next lib₁ internal heq =>
    rw [heq] at hinternal
    have hconsumer : lib₁.Kept (defaultConsumerThreadEngineSet lib₁ config env).1 := threadEngineSet_kept
    split
    next lib₂ heq₂ =>
      rw [heq₂] at hconsumer
      exact (hinternal.trans hconsumer).trans (threadEngineClear_kept lib₂ .internal config (some internal))
    next lib₂ consumer heq₂ =>
      rw [heq₂] at hconsumer
      exact hinternal.trans hconsumer

theorem connCacheInit_kept {h : ℕ} {identity : List Char} : lib.Kept (connCacheInit lib h identity config env).1 := by
  unfold connCacheInit
  split
  · exact .refl lib
  · split
    · exact .refl lib
    · split
      · exact hold_kept lib _
      · exact .refl lib

theorem createClientContexts_kept {h : ℕ} : lib.Kept (createClientContexts lib h env).1 := by
  unfold createClientContexts
  split
  · split
    · exact (hold_kept lib _).trans (hold_kept _ _)
    · exact (hold_kept lib _).trans (release_kept _ _)
  · exact .refl lib

/-! ### When an allocation succeeds -/

theorem threadEngineSet_some_iff :
    (threadEngineSet lib role config env).2 ≠ none ↔ env.Engines lib config role := by
  unfold threadEngineSet AllocEnv.Engines
  split
  next n heq => simp [heq]
  next heq =>
    split
    next e heq' => simp [heq']
    next heq' =>
      cases hcontext : env.engineContext role <;> cases hengine : env.engine role <;> simp [heq, heq']

theorem setThreadEngines_some_iff :
    (setThreadEngines lib config env).2 ≠ none ↔ ∀ role, env.Engines lib config role := by
  have hinternal : (internalThreadEngineSet lib config env).2 ≠ none ↔ env.Engines lib config .internal :=
    threadEngineSet_some_iff
  have hkept : lib.Kept (internalThreadEngineSet lib config env).1 := threadEngineSet_kept
  have hroles : (∀ role, env.Engines lib config role) ↔
      env.Engines lib config .internal ∧ env.Engines lib config .defaultConsumer :=
    ⟨fun h => ⟨h _, h _⟩, fun h role => match role with
      | .internal => h.1
      | .defaultConsumer => h.2⟩
  rw [hroles]
  unfold setThreadEngines
  split
  next lib₁ heq =>
    rw [heq] at hinternal
    simp [← hinternal]
  next lib₁ internal heq =>
    rw [heq] at hinternal hkept
    have hconsumer : (defaultConsumerThreadEngineSet lib₁ config env).2 ≠ none ↔
        env.Engines lib₁ config .defaultConsumer := threadEngineSet_some_iff
    have hsame : env.Engines lib₁ config .defaultConsumer ↔ env.Engines lib config .defaultConsumer := by
      unfold AllocEnv.Engines
      rw [hkept.engines]
    rw [hsame] at hconsumer
    split
    next lib₂ heq₂ =>
      rw [heq₂] at hconsumer
      simp [← hconsumer]
    next lib₂ consumer heq₂ =>
      rw [heq₂] at hconsumer
      simp [← hconsumer, ← hinternal]

theorem connCacheInit_none_iff {h : ℕ} {identity : List Char} :
    (connCacheInit lib h identity config env).2 = none ↔
      (∀ c, config = some c → c.minimum = 0 ∧ c.maximum = 0 ∨ 1 ≤ c.minimum ∧ c.minimum ≤ c.maximum) ∧
        identity.length < 256 - 16 ∧ env.cache = true := by
  have hsane : (config.any fun c => ¬ (c.minimum = 0 ∧ c.maximum = 0) ∧
      (c.minimum < 1 ∨ c.maximum < c.minimum)) = false ↔
        ∀ c, config = some c → c.minimum = 0 ∧ c.maximum = 0 ∨ 1 ≤ c.minimum ∧ c.minimum ≤ c.maximum := by
    cases config with
    | none => simp
    | some c =>
      simp only [Option.any_some, decide_eq_false_iff_not, Option.some.injEq, forall_eq']
      omega
  unfold connCacheInit
  split
  next hbad =>
    refine iff_of_false (by simp) fun hok => ?_
    rw [hsane.mpr hok.1] at hbad
    cases hbad
  next hgood =>
    have hgood' := hsane.mp (by simpa using hgood)
    split
    next hlong => exact iff_of_false (by simp) fun hok => by omega
    next hshort =>
      split
      next hcache => simpa [hcache] using ⟨hgood', by omega⟩
      next hcache => simp [hcache]

theorem createClientContexts_iff {h : ℕ} :
    (createClientContexts lib h env).2 = true ↔ env.sslv23 = true ∧ env.tls = true := by
  unfold createClientContexts
  cases env.sslv23 <;> cases env.tls <;> simp

/-- What an allocation has made of the library when it comes to the thread engines. -/
def Library.prepare (lib : Library) (sslClient : Bool) : Library :=
  let lib' := { (lib.hold (.handle lib.named)) with named := lib.named + 1 }.hold (.identity lib.named)
  if sslClient then (lib'.hold (.sslv23 lib.named)).hold (.tls lib.named) else lib'

/-- The new handle takes the next name. -/
theorem named_kept (lib : Library) :
    lib.Kept { (lib.hold (.handle lib.named)) with named := lib.named + 1 } := ⟨rfl, rfl, rfl, rfl, rfl⟩

theorem prepare_kept (lib : Library) (sslClient : Bool) : lib.Kept (lib.prepare sslClient) := by
  have hnamed := (named_kept lib).trans (hold_kept _ (.identity lib.named))
  cases sslClient with
  | false => exact hnamed
  | true => exact (hnamed.trans (hold_kept _ (.sslv23 lib.named))).trans (hold_kept _ (.tls lib.named))

/-- The answers with which an allocation succeeds from its thread engines on. -/
structure AllocEnv.Finishes (env : AllocEnv) (lib : Library) (name : List Char) (args : AllocArgs) : Prop where
  engines : args.async = true → ∀ role, env.Engines lib args.config role
  config : ∀ config, args.config = some config → config.minimum = 0 ∧ config.maximum = 0 ∨
    1 ≤ config.minimum ∧ config.minimum ≤ config.maximum
  name : name.length < 256 - 16
  cache : env.cache = true

section Allocations

variable {h : ℕ} {name identity : List Char} {args : AllocArgs}

theorem engineStage_kept : lib.Kept (engineStage lib args env).1 := by
  unfold engineStage
  split
  · exact setThreadEngines_kept
  · exact .refl lib

theorem engineStage_some_iff :
    (engineStage lib args env).2 ≠ none ↔ (args.async = true → ∀ role, env.Engines lib args.config role) := by
  unfold engineStage
  split
  next hasync => simp [setThreadEngines_some_iff, hasync]
  next hsync => simp [hsync]

theorem freeAll_kept (lib : Library) (h : ℕ) : lib.Kept (freeHandle (freeClientContexts lib h) h) :=
  (freeClientContexts_kept lib h).trans (freeHandle_kept _ h)

/-- **An allocation that ends with an error (proved).** -/
theorem finishHandle_none (hnot : ¬ env.Finishes lib name args) :
    (finishHandle lib h name args env).2.1 = none ∧ lib.Kept (finishHandle lib h name args env).1 := by
  have hkept : lib.Kept (engineStage lib args env).1 := engineStage_kept
  have hengines : (engineStage lib args env).2 ≠ none ↔ _ := engineStage_some_iff
  unfold finishHandle
  split
  next lib₁ heq =>
    rw [heq] at hkept
    exact ⟨rfl, hkept.trans (freeAll_kept lib₁ h)⟩
  next lib₁ e heq =>
    rw [heq] at hkept hengines
    have hcache : lib₁.Kept (connCacheInit lib₁ h name args.config env).1 := connCacheInit_kept
    have hcaches : (connCacheInit lib₁ h name args.config env).2 = none ↔ _ := connCacheInit_none_iff
    split
    next lib₂ err heq₂ =>
      rw [heq₂] at hcache
      exact ⟨rfl, (hkept.trans hcache).trans (freeAll_kept lib₂ h)⟩
    next lib₂ heq₂ =>
      rw [heq₂] at hcaches
      obtain ⟨hconfig, hname, hpool⟩ := hcaches.mp rfl
      exact absurd ⟨hengines.mp (by simp), hconfig, hname, hpool⟩ hnot

/-- **An allocation that succeeds (proved).** -/
theorem finishHandle_some (hok : env.Finishes lib name args) :
    ∃ lib₁ e, engineStage lib args env = (lib₁, some e) ∧
      finishHandle lib h name args env =
        (connHandleRemember (lib₁.hold (.cache h)) h { flags := args.flags, engines := e } args.config, some h, 0) := by
  have hengines := (@engineStage_some_iff lib env args).mpr hok.engines
  obtain ⟨e, he⟩ := Option.ne_none_iff_exists'.mp hengines
  refine ⟨(engineStage lib args env).1, e, Prod.ext rfl he, ?_⟩
  have hstage : engineStage lib args env = ((engineStage lib args env).1, some e) := Prod.ext rfl he
  have hcache : connCacheInit (engineStage lib args env).1 h name args.config env =
      ((engineStage lib args env).1.hold (.cache h), none) := by
    have hnone : (connCacheInit (engineStage lib args env).1 h name args.config env).2 = none :=
      connCacheInit_none_iff.mpr ⟨hok.config, hok.name, hok.cache⟩
    unfold connCacheInit at hnone ⊢
    split at hnone
    · cases hnone
    next hsane =>
      rw [if_neg hsane]
      split at hnone
      · cases hnone
      next hshort =>
        rw [if_neg hshort]
        split at hnone
        next hpool => rw [if_pos hpool]
        · cases hnone
  unfold finishHandle
  rw [hstage]
  simp only [hcache]

/-- The answers with which an allocation succeeds once the socket library has started. -/
structure AllocEnv.Allocates (env : AllocEnv) (lib : Library) (identity : List Char) (args : AllocArgs) : Prop where
  handle : env.handle = true
  copied : env.identity = true
  contexts : args.sslClient = true → env.sslv23 = true ∧ env.tls = true
  finishes : ∃ name, copyIdentity identity = some name ∧ env.Finishes lib name args

theorem AllocEnv.Finishes.congr (hsame : lib'.engines = lib.engines) :
    env.Finishes lib' name args ↔ env.Finishes lib name args := by
  have hengines : ∀ role, env.Engines lib' args.config role ↔ env.Engines lib args.config role := by
    intro role
    unfold AllocEnv.Engines
    rw [hsame]
  exact ⟨fun hok => ⟨fun ha role => (hengines role).mp (hok.engines ha role), hok.config, hok.name, hok.cache⟩,
    fun hok => ⟨fun ha role => (hengines role).mpr (hok.engines ha role), hok.config, hok.name, hok.cache⟩⟩

theorem contextStage_kept : lib.Kept (contextStage lib h args env).1 := by
  unfold contextStage
  split
  · exact createClientContexts_kept
  · exact .refl lib

theorem contextStage_iff :
    (contextStage lib h args env).2 = true ↔ (args.sslClient = true → env.sslv23 = true ∧ env.tls = true) := by
  unfold contextStage
  split
  next hssl => simp [createClientContexts_iff, hssl]
  next hplain => simp [hplain]

theorem contextStage_true (hok : args.sslClient = true → env.sslv23 = true ∧ env.tls = true) :
    contextStage lib h args env =
      (if args.sslClient then (lib.hold (.sslv23 h)).hold (.tls h) else lib, true) := by
  unfold contextStage
  cases hssl : args.sslClient with
  | true => simp [createClientContexts, hok hssl]
  | false => rfl

/-- An allocation from the handle on that fails. -/
theorem allocHandle_none (hnot : ¬ env.Allocates lib identity args) :
    (allocHandle lib identity args env).2.1 = none ∧ lib.Kept (allocHandle lib identity args env).1 := by
  unfold allocHandle
  split
  next hhandle =>
    simp only
    split
    next name hname =>
      split
      next hidentity =>
        have hcontexts := ((named_kept lib).trans (hold_kept _ (.identity lib.named))).trans
          (contextStage_kept : Library.Kept _ (contextStage _ lib.named args env).1)
        have hiff : (contextStage ({ (lib.hold (.handle lib.named)) with named := lib.named + 1 }.hold
          (.identity lib.named)) lib.named args env).2 = true ↔ _ := contextStage_iff
        split
        next lib₁ heq =>
          rw [heq] at hcontexts hiff
          have hfinish : ¬ env.Finishes lib₁ name args := fun hok =>
            hnot ⟨hhandle, hidentity, hiff.mp rfl, name, hname, (AllocEnv.Finishes.congr hcontexts.engines).mp hok⟩
          obtain ⟨hnone, hkept⟩ := @finishHandle_none lib₁ env lib.named name args hfinish
          exact ⟨hnone, hcontexts.trans hkept⟩
        next lib₁ heq =>
          rw [heq] at hcontexts
          exact ⟨rfl, hcontexts.trans (freeHandle_kept lib₁ lib.named)⟩
      · exact ⟨rfl, (named_kept lib).trans (release_kept _ _)⟩
    · exact ⟨rfl, (named_kept lib).trans (release_kept _ _)⟩
  · exact ⟨rfl, .refl lib⟩

/-- An allocation from the handle on that succeeds. -/
theorem allocHandle_some (hok : env.Allocates lib identity args) :
    ∃ lib₁ e, engineStage (lib.prepare args.sslClient) args env = (lib₁, some e) ∧
      allocHandle lib identity args env =
        (connHandleRemember (lib₁.hold (.cache lib.named)) lib.named { flags := args.flags, engines := e } args.config,
          some lib.named, 0) := by
  obtain ⟨name, hname, hfinish⟩ := hok.finishes
  have hfinish' : env.Finishes (lib.prepare args.sslClient) name args :=
    (AllocEnv.Finishes.congr (prepare_kept lib args.sslClient).engines).mpr hfinish
  obtain ⟨lib₁, e, hstage, heq⟩ := @finishHandle_some _ env lib.named name args hfinish'
  refine ⟨lib₁, e, hstage, ?_⟩
  unfold allocHandle
  simp only [hok.handle, hok.copied, hname, contextStage_true hok.contexts, if_true]
  exact heq

/-- The library after `SocketLibStart`. -/
def Library.start (lib : Library) (args : AllocArgs) (env : AllocEnv) : Library :=
  (socketLibStart { lib with running := true } args.flags env).1

/-- **`SocketLibStart` counts its caller (proved),** also when it fails. -/
theorem start_spec (lib : Library) (args : AllocArgs) (env : AllocEnv) :
    lib.start args env = { lib with
      running := true
      useCount := lib.useCount + 1
      creator := (lib.start args env).creator
      sslEnabled := (lib.start args env).sslEnabled
      eventEngine := lib.eventEngine || args.async && env.eventEngine } := by
  simp only [Library.start, socketLibStart, AllocArgs.async]
  split
  next hengine => simp [hengine]
  next hengine =>
    cases hevent : lib.eventEngine with
    | true => simp
    | false =>
      have hsync : args.flags &&& connHandleAsyncEnabled = 0 := by simpa [hevent] using hengine
      simp [hsync]

theorem socketLibStart_iff : (socketLibStart { lib with running := true } args.flags env).2 = true ↔
    (args.async = true → lib.eventEngine = true ∨ env.eventEngine = true) := by
  simp only [socketLibStart, AllocArgs.async]
  cases hevent : lib.eventEngine <;> cases hengine : env.eventEngine <;>
    by_cases hasync : args.flags &&& connHandleAsyncEnabled = 0 <;> simp [hasync]

/-- **A call with arguments that do not pass the checks (proved).** -/
theorem connHandleAllocEx_invalid (hnot : ¬ args.Valid) : connHandleAllocEx lib args env = (lib, none, Errno.einval) := by
  unfold connHandleAllocEx
  split
  · rfl
  next id hid =>
    split
    · rfl
    next hflags =>
      split
      · rfl
      next hsource =>
        refine absurd ⟨?_, ?_, ?_⟩ hnot
        · rw [hid]
          simp
        · simpa using hflags
        · simpa using hsource

/-- A call with arguments that pass the checks. -/
theorem connHandleAllocEx_valid (hvalid : args.Valid) (hid : args.identity = some identity) :
    connHandleAllocEx lib args env =
      if (socketLibStart { lib with running := true } args.flags env).2 then
        allocHandle (lib.start args env) identity args env
      else (lib.start args env, none, 0) := by
  obtain ⟨_, hflags, hsource⟩ := hvalid
  unfold connHandleAllocEx Library.start
  rw [hid]
  simp only [hflags, hsource, ne_eq, not_true_eq_false, if_false, Bool.true_eq_false]
  rcases socketLibStart { lib with running := true } args.flags env with ⟨lib', ok⟩
  cases ok <;> rfl

theorem AllocEnv.suffices_iff (hid : args.identity = some identity) : env.Suffices lib args ↔
    (args.async = true → lib.eventEngine = true ∨ env.eventEngine = true) ∧
      env.Allocates (lib.start args env) identity args := by
  have hsame : (lib.start args env).engines = lib.engines := by
    rw [start_spec]
  constructor
  · intro hok
    obtain ⟨name, hname, hlength⟩ := hok.name
    rw [hid] at hname
    exact ⟨hok.eventEngine, hok.handle, hok.identity, hok.contexts, name, hname,
      (AllocEnv.Finishes.congr hsame).mpr ⟨hok.engines, hok.config, hlength, hok.cache⟩⟩
  · rintro ⟨hevent, hok⟩
    obtain ⟨name, hname, hfinish⟩ := hok.finishes
    have hfinish' := (AllocEnv.Finishes.congr hsame).mp hfinish
    exact ⟨hevent, hok.handle, ⟨name, by rw [hid]; exact hname, hfinish'.name⟩, hok.copied, hok.contexts,
      hfinish'.engines, hfinish'.config, hfinish'.cache⟩

/-- **A call that fails after its checks (proved)** leaves one more caller counted. -/
theorem connHandleAllocEx_none (hvalid : args.Valid) (hnot : ¬ env.Suffices lib args) :
    (connHandleAllocEx lib args env).2.1 = none ∧ (lib.start args env).Kept (connHandleAllocEx lib args env).1 := by
  obtain ⟨identity, hid⟩ := Option.ne_none_iff_exists'.mp hvalid.1
  rw [connHandleAllocEx_valid hvalid hid]
  split
  next hstart =>
    refine allocHandle_none fun hok => hnot ?_
    exact (AllocEnv.suffices_iff hid).mpr ⟨socketLibStart_iff.mp hstart, hok⟩
  · exact ⟨rfl, .refl _⟩

/-- **A call that succeeds (proved).** -/
theorem connHandleAllocEx_some (hvalid : args.Valid) (hok : env.Suffices lib args) :
    ∃ lib₁ e, engineStage ((lib.start args env).prepare args.sslClient) args env = (lib₁, some e) ∧
      connHandleAllocEx lib args env =
        (connHandleRemember (lib₁.hold (.cache lib.named)) lib.named { flags := args.flags, engines := e } args.config,
          some lib.named, 0) := by
  obtain ⟨identity, hid⟩ := Option.ne_none_iff_exists'.mp hvalid.1
  obtain ⟨hevent, halloc⟩ := (AllocEnv.suffices_iff hid).mp hok
  have hnamed : (lib.start args env).named = lib.named := by
    rw [start_spec]
  rw [connHandleAllocEx_valid hvalid hid, if_pos (socketLibStart_iff.mpr hevent), ← hnamed]
  exact allocHandle_some halloc

end Allocations

end Pieces

/-! ### The invariant -/

/-- **Each thread engine that has been created is registered or destroyed,** and held as long as it is registered. -/
structure EnginesInv (lib : Library) (engines : EngineRole → Option AThreadEngine) : Prop where
  known : ∀ role e, engines role = some e → ∃ n < lib.created, e = .created n ∧ e ∉ lib.destroyed
  distinct : ∀ role role' e, engines role = some e → engines role' = some e → role = role'
  all : ∀ n < lib.created, .created n ∈ lib.destroyed ∨ ∃ role, engines role = some (.created n)
  once : lib.destroyed.Nodup
  own : ∀ e ∈ lib.destroyed, ∃ n < lib.created, e = .created n
  context : ∀ n, lib.held (.engineContext n) = true ↔ ∃ role, engines role = some (.created n)
  engine : ∀ n, lib.held (.engine n) = true ↔ ∃ role, engines role = some (.created n)

/-- The engines that `ConnHandleRemember` leaves registered. -/
def remembered (registered : EngineRole → Option AThreadEngine) (config : Option ConnHandleConfig)
    (engines : EngineRole → Option AThreadEngine) (role : EngineRole) : Option AThreadEngine :=
  if registered role = none ∧ (config.bind fun config => config.engines role) = none then engines role
  else registered role

section Engines

variable {lib lib' : Library} {config : Option ConnHandleConfig} {env : AllocEnv} {role : EngineRole}
  {engines p : EngineRole → Option AThreadEngine}

/-- An engine is created. -/
theorem EnginesInv.create (h : EnginesInv lib engines) (hnone : engines role = none) :
    EnginesInv lib.create (Function.update engines role (some (.created lib.created))) := by
  have hfresh : ∀ role' e, engines role' = some e → e ≠ .created lib.created := by
    intro role' e he heq
    obtain ⟨n, hn, heq', _⟩ := h.known role' e he
    rw [heq] at heq'
    cases heq'
    omega
  have hregistered : ∀ n, (∃ role', Function.update engines role (some (.created lib.created)) role' =
      some (.created n)) ↔ n = lib.created ∨ ∃ role', engines role' = some (.created n) := by
    intro n
    constructor
    · rintro ⟨role', hrole'⟩
      by_cases hr : role' = role
      · rw [hr, Function.update_self] at hrole'
        cases hrole'
        exact Or.inl rfl
      · rw [Function.update_of_ne hr] at hrole'
        exact Or.inr ⟨role', hrole'⟩
    · rintro (rfl | ⟨role', hrole'⟩)
      · exact ⟨role, Function.update_self _ _ _⟩
      · have hr : role' ≠ role := by
          intro heq
          rw [heq, hnone] at hrole'
          cases hrole'
        exact ⟨role', (Function.update_of_ne hr _ _).trans hrole'⟩
  refine ⟨fun role' e he => ?_, fun r r' e hr hr' => ?_, fun n hn => ?_, h.once, fun e he => ?_, fun n => ?_, fun n => ?_⟩
  · by_cases hr : role' = role
    · rw [hr, Function.update_self] at he
      cases he
      refine ⟨lib.created, Nat.lt_succ_self _, rfl, fun hmem => ?_⟩
      obtain ⟨n, hn, heq⟩ := h.own _ hmem
      cases heq
      omega
    · rw [Function.update_of_ne hr] at he
      obtain ⟨n, hn, heq, hnot⟩ := h.known role' e he
      exact ⟨n, Nat.lt_succ_of_lt hn, heq, hnot⟩
  · by_cases hrr : r = role <;> by_cases hrr' : r' = role
    · exact hrr.trans hrr'.symm
    · rw [hrr, Function.update_self] at hr
      rw [Function.update_of_ne hrr'] at hr'
      cases hr
      exact absurd rfl (hfresh r' _ hr')
    · rw [hrr', Function.update_self] at hr'
      rw [Function.update_of_ne hrr] at hr
      cases hr'
      exact absurd rfl (hfresh r _ hr)
    · rw [Function.update_of_ne hrr] at hr
      rw [Function.update_of_ne hrr'] at hr'
      exact h.distinct r r' e hr hr'
  · have hn' : n < lib.created + 1 := hn
    rw [hregistered n]
    by_cases hlast : n = lib.created
    · exact Or.inr (Or.inl hlast)
    · rcases h.all n (by omega) with hd | hr
      · exact Or.inl hd
      · exact Or.inr (Or.inr hr)
  · obtain ⟨n, hn, heq⟩ := h.own e he
    exact ⟨n, Nat.lt_succ_of_lt hn, heq⟩
  · rw [hregistered n, ← h.context n]
    by_cases hn : n = lib.created <;> simp [Library.create, Library.hold, hn]
  · rw [hregistered n, ← h.engine n]
    by_cases hn : n = lib.created <;> simp [Library.create, Library.hold, hn]

/-- The engines depend on the creations, the destructions and the memory of engines. -/
theorem EnginesInv.congr (h : EnginesInv lib engines) (hcreated : lib'.created = lib.created)
    (hdestroyed : lib'.destroyed = lib.destroyed)
    (hcontext : ∀ n, lib'.held (.engineContext n) = lib.held (.engineContext n))
    (hengine : ∀ n, lib'.held (.engine n) = lib.held (.engine n)) : EnginesInv lib' engines := by
  refine ⟨?_, h.distinct, ?_, ?_, ?_, fun n => ?_, fun n => ?_⟩
  · rw [hcreated, hdestroyed]
    exact h.known
  · rw [hcreated, hdestroyed]
    exact h.all
  · rw [hdestroyed]
    exact h.once
  · rw [hcreated, hdestroyed]
    exact h.own
  · rw [hcontext n]
    exact h.context n
  · rw [hengine n]
    exact h.engine n

/-- What belongs to a handle. -/
def Resource.OfHandle : Resource → Prop
  | engineContext _ | engine _ => False
  | _ => True

/-- What the calls for thread engines leave alone. -/
structure Library.SameHandles (lib lib' : Library) : Prop where
  named : lib'.named = lib.named
  held : ∀ r, r.OfHandle → lib'.held r = lib.held r

theorem Library.SameHandles.refl (lib : Library) : lib.SameHandles lib := ⟨rfl, fun _ _ => rfl⟩

theorem Library.SameHandles.trans {lib'' : Library} (h : lib.SameHandles lib') (h' : lib'.SameHandles lib'') :
    lib.SameHandles lib'' :=
  ⟨h'.named.trans h.named, fun r hr => (h'.held r hr).trans (h.held r hr)⟩

theorem hold_sameHandles {r : Resource} (hr : ¬ r.OfHandle) : lib.SameHandles (lib.hold r) := by
  refine ⟨rfl, fun r' hr' => Function.update_of_ne ?_ _ _⟩
  rintro rfl
  exact hr hr'

theorem release_sameHandles {r : Resource} (hr : ¬ r.OfHandle) : lib.SameHandles (lib.release r) := by
  refine ⟨rfl, fun r' hr' => Function.update_of_ne ?_ _ _⟩
  rintro rfl
  exact hr hr'

/-- **What `threadEngineSet` does (proved)** to the engines that are to be registered at the end. -/
theorem EnginesInv.set {e : AThreadEngine} (h : EnginesInv lib engines) (hrole : engines role = lib.engines role)
    (hset : threadEngineSet lib role config env = (lib', some e)) :
    EnginesInv lib' (Function.update engines role (remembered lib.engines config (fun _ => some e) role)) ∧
      ((∃ n, e = .supplied n) ∨ remembered lib.engines config (fun _ => some e) role = some e) ∧
      lib.SameHandles lib' := by
  have hsame : ∀ x, x = lib.engines role → Function.update engines role x = engines := by
    rintro x rfl
    rw [← hrole]
    exact Function.update_eq_self role engines
  unfold threadEngineSet at hset
  unfold remembered
  split at hset
  next n hsupplied =>
    cases hset
    rw [hsupplied, if_neg (by simp), hsame _ rfl]
    exact ⟨h, Or.inl ⟨n, rfl⟩, .refl lib⟩
  next hnone =>
    split at hset
    next e' he =>
      cases hset
      rw [if_neg (by simp [he]), hsame _ rfl]
      exact ⟨h, Or.inr he, .refl lib⟩
    next he =>
      split at hset
      · split at hset
        · cases hset
          rw [if_pos ⟨he, hnone⟩]
          have hcreate : lib.SameHandles lib.create := by
            have hcontext : lib.SameHandles (lib.hold (.engineContext lib.created)) := hold_sameHandles fun h => h
            have hengine : (lib.hold (.engineContext lib.created)).SameHandles
                ((lib.hold (.engineContext lib.created)).hold (.engine lib.created)) := hold_sameHandles fun h => h
            exact ⟨(hcontext.trans hengine).named, (hcontext.trans hengine).held⟩
          exact ⟨h.create (hrole.trans he), Or.inr rfl, hcreate⟩
        · cases hset
      · cases hset

/-- What the engines of a new handle are to the library. -/
def Uses (registered : EngineRole → Option AThreadEngine) (engines : EngineRole → Option AThreadEngine) : Prop :=
  ∀ role e, engines role = some e → (∃ n, e = .supplied n) ∨ registered role = some e

/-- **The thread engines of a new handle (proved).** -/
theorem EnginesInv.stage {args : AllocArgs} (h : EnginesInv lib lib.engines)
    (hstage : engineStage lib args env = (lib', some p)) :
    EnginesInv lib' (remembered lib.engines args.config p) ∧ Uses (remembered lib.engines args.config p) p ∧
      lib.SameHandles lib' := by
  unfold engineStage setThreadEngines internalThreadEngineSet defaultConsumerThreadEngineSet at hstage
  split at hstage
  · split at hstage
    · cases hstage
    next lib₁ internal hinternal =>
      split at hstage
      · cases hstage
      next lib₂ consumer hconsumer =>
        cases hstage
        have hkept : lib.Kept lib₁ := by
          have hkept : lib.Kept (threadEngineSet lib .internal args.config env).1 := threadEngineSet_kept
          rwa [hinternal] at hkept
        obtain ⟨hinv₁, huse₁, hsame₁⟩ := h.set rfl hinternal
        have hother : Function.update lib.engines .internal
            (remembered lib.engines args.config (fun _ => some internal) .internal) .defaultConsumer =
              lib₁.engines .defaultConsumer := by
          rw [hkept.engines]
          exact Function.update_of_ne (by decide) _ _
        obtain ⟨hinv₂, huse₂, hsame₂⟩ := hinv₁.set hother hconsumer
        rw [hkept.engines] at hinv₂ huse₂
        refine ⟨?_, fun role e he => ?_, hsame₁.trans hsame₂⟩
        · convert hinv₂ using 1
          funext role
          cases role with
          | internal => simp [remembered]
          | defaultConsumer => simp [remembered]
        · cases role with
          | internal =>
            cases he
            exact huse₁
          | defaultConsumer =>
            cases he
            exact huse₂
  · cases hstage
    have hsame : remembered lib.engines args.config (fun _ => none) = lib.engines := by
      funext role
      unfold remembered
      split
      next hnone => exact hnone.1.symm
      · rfl
    rw [hsame]
    exact ⟨h, fun role e he => (by cases he), .refl lib⟩

/-- **An engine is forgotten and destroyed (proved).** -/
theorem EnginesInv.forget (h : EnginesInv lib lib.engines) (role : EngineRole) :
    EnginesInv (forgetEngine lib role) (forgetEngine lib role).engines ∧
      (forgetEngine lib role).engines = Function.update lib.engines role none ∧
      lib.SameHandles (forgetEngine lib role) := by
  unfold forgetEngine
  split
  next e he =>
    obtain ⟨n, hn, rfl, hnot⟩ := h.known role e he
    have hregistered : ∀ m, (∃ role', Function.update lib.engines role none role' = some (.created m)) ↔
        m ≠ n ∧ ∃ role', lib.engines role' = some (.created m) := by
      intro m
      constructor
      · rintro ⟨role', hrole'⟩
        have hr : role' ≠ role := by
          rintro rfl
          rw [Function.update_self] at hrole'
          cases hrole'
        rw [Function.update_of_ne hr] at hrole'
        refine ⟨?_, role', hrole'⟩
        rintro rfl
        exact hr (h.distinct role' role _ hrole' he)
      · rintro ⟨hm, role', hrole'⟩
        have hr : role' ≠ role := by
          rintro rfl
          rw [he] at hrole'
          cases hrole'
          exact hm rfl
        exact ⟨role', (Function.update_of_ne hr _ _).trans hrole'⟩
    refine ⟨⟨fun role' e' he' => ?_, fun r r' e' hr hr' => ?_, fun m hm => ?_, ?_, fun e' he' => ?_, fun m => ?_,
      fun m => ?_⟩, rfl, rfl, fun r hr => ?_⟩
    · change Function.update lib.engines role none role' = some e' at he'
      obtain ⟨m, rfl⟩ : ∃ m, e' = .created m := by
        have hr : role' ≠ role := by
          rintro rfl
          rw [Function.update_self] at he'
          cases he'
        rw [Function.update_of_ne hr] at he'
        obtain ⟨m, _, heq, _⟩ := h.known role' e' he'
        exact ⟨m, heq⟩
      obtain ⟨hm, role'', hrole''⟩ := (hregistered m).mp ⟨role', he'⟩
      obtain ⟨m', hm', heq, hnot'⟩ := h.known role'' _ hrole''
      cases heq
      refine ⟨m, hm', rfl, fun hmem => ?_⟩
      rcases List.mem_cons.mp hmem with heq | hmem
      · cases heq
        exact hm rfl
      · exact hnot' hmem
    · have hne : ∀ {r : EngineRole}, Function.update lib.engines role none r = some e' → lib.engines r = some e' := by
        intro r hr
        by_cases hrr : r = role
        · rw [hrr, Function.update_self] at hr
          cases hr
        · rwa [Function.update_of_ne hrr] at hr
      exact h.distinct r r' e' (hne hr) (hne hr')
    · rw [hregistered m]
      by_cases hmn : m = n
      · left
        rw [hmn]
        exact List.mem_cons_self
      · rcases h.all m hm with hd | hr
        · exact Or.inl (List.mem_cons_of_mem _ hd)
        · exact Or.inr ⟨hmn, hr⟩
    · exact List.nodup_cons.mpr ⟨hnot, h.once⟩
    · rcases List.mem_cons.mp he' with rfl | hmem
      · exact ⟨n, hn, rfl⟩
      · exact h.own e' hmem
    · rw [hregistered m, ← h.context m]
      by_cases hmn : m = n <;> simp [athreadEngineDestroy, Library.release, hmn]
    · rw [hregistered m, ← h.engine m]
      by_cases hmn : m = n <;> simp [athreadEngineDestroy, Library.release, hmn]
    · have hcontext : (lib.release (.engine n)).SameHandles ((lib.release (.engine n)).release (.engineContext n)) :=
        release_sameHandles fun h => h
      have hengine : lib.SameHandles (lib.release (.engine n)) := release_sameHandles fun h => h
      exact (hengine.trans hcontext).held r hr
  next hnone =>
    refine ⟨h, ?_, .refl lib⟩
    rw [← hnone]
    exact (Function.update_eq_self role lib.engines).symm

end Engines

/-- **The invariant of the library.** -/
structure LibraryInv (lib : Library) : Prop where
  useCount : lib.useCount = lib.handles.length
  nodup : lib.handles.Nodup
  named : ∀ h ∈ lib.handles, h < lib.named
  eventEngine : lib.eventEngine = true → lib.handles ≠ []
  async : ∀ h ∈ lib.handles, (lib.record h).flags &&& connHandleAsyncEnabled ≠ 0 → lib.eventEngine = true
  engines : EnginesInv lib lib.engines
  uses : ∀ h ∈ lib.handles, Uses lib.engines (lib.record h).engines
  idle : lib.handles = [] → ∀ role, lib.engines role = none
  held : ∀ r, r.OfHandle → (lib.held r = true ↔ r.Owned lib)

theorem libraryInv_new : LibraryInv {} where
  useCount := rfl
  nodup := List.nodup_nil
  named := fun _ hh => (by cases hh)
  eventEngine := fun h => (by cases h)
  async := fun _ hh => (by cases hh)
  engines := ⟨fun _ _ he => (by cases he), fun _ _ _ he => (by cases he), fun _ hn => absurd hn (Nat.not_lt_zero _),
    List.nodup_nil, fun _ he => (by cases he), fun _ => ⟨fun h => (by cases h), fun ⟨_, h⟩ => (by cases h)⟩,
    fun _ => ⟨fun h => (by cases h), fun ⟨_, h⟩ => (by cases h)⟩⟩
  uses := fun _ hh => (by cases hh)
  idle := fun _ _ => rfl
  held := fun r _ => by
    refine iff_of_false (by simp) ?_
    cases r <;> simp [Resource.Owned]

/-- **What the invariant says about the resources (proved).** -/
theorem LibraryInv.counted {lib : Library} (h : LibraryInv lib) : Counted lib where
  useCount := h.useCount
  eventEngine := h.eventEngine
  async := h.async
  once := h.engines.once
  own := h.engines.own
  last := by
    intro e he hd hh role hrole
    obtain ⟨n, _, rfl⟩ := h.engines.own e he
    rcases h.uses hd hh role _ hrole with ⟨m, hm⟩ | hregistered
    · cases hm
    · obtain ⟨_, _, _, hnot⟩ := h.engines.known role _ hregistered
      exact hnot he
  all := by
    intro hempty n hn
    rcases h.engines.all n hn with hd | ⟨role, hrole⟩
    · exact hd
    · rw [h.idle hempty role] at hrole
      cases hrole
  owned := by
    intro r
    cases r with
    | engineContext n => exact h.engines.context n
    | engine n => exact h.engines.engine n
    | handle n => exact h.held _ trivial
    | identity n => exact h.held _ trivial
    | sslv23 n => exact h.held _ trivial
    | tls n => exact h.held _ trivial
    | cache n => exact h.held _ trivial

/-! ### The calls keep the invariant -/

/-- The resources of a handle that is there with `flags`. -/
def Resource.Of (h flags : ℕ) (r : Resource) : Prop :=
  r = .handle h ∨ r = .identity h ∨ r = .cache h ∨
    flags &&& connHandleSslClientEnabled ≠ 0 ∧ (r = .sslv23 h ∨ r = .tls h)

/-- What is owned after a handle has been added. -/
theorem Resource.owned_append {lib lib' : Library} {r : Resource} (hr : r.OfHandle) {h : ℕ}
    {handle : ConnHandlePriv} (hnew : h ∉ lib.handles) (hhandles : lib'.handles = lib.handles ++ [h])
    (hrecord : lib'.record = Function.update lib.record h handle) :
    r.Owned lib' ↔ r.Owned lib ∨ r.Of h handle.flags := by
  have hmem : ∀ n, n ∈ lib'.handles ↔ n ∈ lib.handles ∨ n = h := by
    intro n
    rw [hhandles, List.mem_append, List.mem_singleton]
  have hssl : ∀ n, (n ∈ lib'.handles ∧ (lib'.record n).flags &&& connHandleSslClientEnabled ≠ 0) ↔
      (n ∈ lib.handles ∧ (lib.record n).flags &&& connHandleSslClientEnabled ≠ 0) ∨
        handle.flags &&& connHandleSslClientEnabled ≠ 0 ∧ n = h := by
    intro n
    rw [hmem n, hrecord]
    by_cases hn : n = h
    · rw [hn, Function.update_self]
      simp [hnew]
    · rw [Function.update_of_ne hn]
      simp [hn]
  cases r with
  | handle n => simp [Resource.Owned, Resource.Of, hmem]
  | identity n => simp [Resource.Owned, Resource.Of, hmem]
  | cache n => simp [Resource.Owned, Resource.Of, hmem]
  | sslv23 n => simpa [Resource.Owned, Resource.Of] using hssl n
  | tls n => simpa [Resource.Owned, Resource.Of] using hssl n
  | engineContext n => exact hr.elim
  | engine n => exact hr.elim

/-- What is owned after a handle has been erased. -/
theorem Resource.owned_erase {lib lib' : Library} {r : Resource} (hr : r.OfHandle) {h : ℕ}
    (hnodup : lib.handles.Nodup) (hhandles : lib'.handles = lib.handles.erase h) (hrecord : lib'.record = lib.record) :
    r.Owned lib' ↔ r.Owned lib ∧ r ≠ .handle h ∧ r ≠ .identity h ∧ r ≠ .cache h ∧ r ≠ .sslv23 h ∧ r ≠ .tls h := by
  have hmem : ∀ n, n ∈ lib'.handles ↔ n ∈ lib.handles ∧ n ≠ h := by
    intro n
    rw [hhandles, hnodup.mem_erase_iff]
    exact and_comm
  cases r with
  | handle n => simp [Resource.Owned, hmem]
  | identity n => simp [Resource.Owned, hmem]
  | cache n => simp [Resource.Owned, hmem]
  | sslv23 n => simp [Resource.Owned, hmem, hrecord, and_right_comm]
  | tls n => simp [Resource.Owned, hmem, hrecord, and_right_comm]
  | engineContext n => exact hr.elim
  | engine n => exact hr.elim

section Calls

variable {lib lib' : Library} {args : AllocArgs} {env : AllocEnv}

/-- What an allocation holds when it comes to the thread engines. -/
theorem prepare_held (lib : Library) (sslClient : Bool) (r : Resource) :
    (lib.prepare sslClient).held r = true ↔
      lib.held r = true ∨ r = .handle lib.named ∨ r = .identity lib.named ∨
        sslClient = true ∧ (r = .sslv23 lib.named ∨ r = .tls lib.named) := by
  have hhold : ∀ (l : Library) (r' : Resource), (l.hold r').held r = true ↔ l.held r = true ∨ r = r' := by
    intro l r'
    by_cases hr : r = r' <;> simp [Library.hold, hr]
  have hfirst : ({ (lib.hold (.handle lib.named)) with named := lib.named + 1 } : Library).held r = true ↔
      lib.held r = true ∨ r = .handle lib.named := hhold lib _
  cases sslClient with
  | false =>
    refine (hhold _ _).trans ?_
    rw [hfirst]
    simp [or_assoc]
  | true =>
    refine (hhold _ _).trans ?_
    rw [hhold, hhold, hfirst]
    tauto

/-- `lib'` is `lib` with one more handle. -/
structure Library.Added (lib lib' : Library) (handle : ConnHandlePriv) (config : Option ConnHandleConfig) : Prop where
  handles : lib'.handles = lib.handles ++ [lib.named]
  record : lib'.record = Function.update lib.record lib.named handle
  named : lib'.named = lib.named + 1
  useCount : lib'.useCount = lib.useCount + 1
  eventEngine : lib.eventEngine = true → lib'.eventEngine = true
  async : handle.flags &&& connHandleAsyncEnabled ≠ 0 → lib'.eventEngine = true
  registered : lib'.engines = remembered lib.engines config handle.engines
  engines : EnginesInv lib' lib'.engines
  uses : Uses lib'.engines handle.engines
  held : ∀ r, r.OfHandle → (lib'.held r = true ↔ lib.held r = true ∨ r.Of lib.named handle.flags)

/-- The library when an allocation comes to the thread engines. -/
theorem start_prepare_engines (h : EnginesInv lib lib.engines) :
    EnginesInv ((lib.start args env).prepare args.sslClient) lib.engines := by
  rw [start_spec]
  refine h.congr ?_ ?_ (fun n => ?_) (fun n => ?_)
  · simp only [Library.prepare]
    split <;> rfl
  · simp only [Library.prepare]
    split <;> rfl
  · simp only [Library.prepare]
    split <;> simp [Library.hold]
  · simp only [Library.prepare]
    split <;> simp [Library.hold]

/-- **An allocation that succeeds adds a handle (proved).** -/
theorem alloc_added (h : EnginesInv lib lib.engines) (hvalid : args.Valid) (hok : env.Suffices lib args) :
    ∃ handle, lib.Added (connHandleAllocEx lib args env).1 handle args.config := by
  obtain ⟨lib₁, e, hstage, heq⟩ := connHandleAllocEx_some hvalid hok
  rw [heq]
  have hstart := start_spec lib args env
  have hprepared := prepare_kept (lib.start args env) args.sslClient
  have hkept : ((lib.start args env).prepare args.sslClient).Kept lib₁ := by
    have hkept := @engineStage_kept ((lib.start args env).prepare args.sslClient) env args
    rwa [hstage] at hkept
  have hsum := hprepared.trans hkept
  have hhandles : lib₁.handles = lib.handles := by rw [hsum.handles, hstart]
  have hrecord : lib₁.record = lib.record := by rw [hsum.record, hstart]
  have hengines : lib₁.engines = lib.engines := by rw [hsum.engines, hstart]
  have hevent : lib₁.eventEngine = (lib.eventEngine || args.async && env.eventEngine) := by
    rw [hsum.eventEngine, hstart]
  have hprepare : EnginesInv ((lib.start args env).prepare args.sslClient)
      ((lib.start args env).prepare args.sslClient).engines := by
    have hsame : (lib.start args env).engines = lib.engines := by rw [hstart]
    rw [hprepared.engines, hsame]
    exact start_prepare_engines h
  obtain ⟨hinv, huses, hsame⟩ := hprepare.stage hstage
  rw [hprepared.engines, hstart] at hinv huses
  have hremember : (connHandleRemember (lib₁.hold (.cache lib.named)) lib.named { flags := args.flags, engines := e }
      args.config).engines = remembered lib.engines args.config e := by
    change remembered lib₁.engines args.config e = _
    rw [hengines]
  refine ⟨{ flags := args.flags, engines := e }, ?_, ?_, ?_, ?_, fun hev => ?_, fun hflags => ?_, hremember, ?_, ?_,
    fun r hr => ?_⟩
  · change lib₁.handles ++ _ = _
    rw [hhandles]
  · change Function.update lib₁.record _ _ = _
    rw [hrecord]
  · change lib₁.named = _
    rw [hsame.named, hstart]
    simp only [Library.prepare]
    split <;> rfl
  · change lib₁.useCount = _
    rw [hsum.useCount, hstart]
  · change lib₁.eventEngine = true
    rw [hevent, hev]
    rfl
  · change lib₁.eventEngine = true
    have hasync : args.async = true := by simpa [AllocArgs.async] using hflags
    rw [hevent]
    rcases hok.eventEngine hasync with hev | hev
    · simp [hev]
    · simp [hev, hasync]
  · rw [hremember]
    refine hinv.congr rfl rfl (fun n => ?_) (fun n => ?_)
    · change Function.update lib₁.held (.cache lib.named) true (.engineContext n) = _
      exact Function.update_of_ne (by simp) _ _
    · change Function.update lib₁.held (.cache lib.named) true (.engine n) = _
      exact Function.update_of_ne (by simp) _ _
  · rw [hremember]
    exact huses
  · have hheld := prepare_held (lib.start args env) args.sslClient r
    have hssl : args.sslClient = true ↔ args.flags &&& connHandleSslClientEnabled ≠ 0 := by simp [AllocArgs.sslClient]
    have hstarted : (lib.start args env).held = lib.held ∧ (lib.start args env).named = lib.named := by
      rw [hstart]
      exact ⟨rfl, rfl⟩
    rw [← hsame.held r hr, hssl, hstarted.1, hstarted.2] at hheld
    change Function.update lib₁.held (.cache lib.named) true r = true ↔ _
    by_cases hc : r = .cache lib.named
    · rw [hc, Function.update_self]
      exact iff_of_true rfl (Or.inr (Or.inr (Or.inr (Or.inl rfl))))
    · rw [Function.update_of_ne hc, hheld]
      simp only [Resource.Of, hc, false_or]

/-- **A handle that is added keeps the invariant (proved).** -/
theorem LibraryInv.added {handle : ConnHandlePriv} {config : Option ConnHandleConfig} (h : LibraryInv lib)
    (ha : lib.Added lib' handle config) : LibraryInv lib' := by
  have hnew : lib.named ∉ lib.handles := fun hmem => absurd (h.named _ hmem) (Nat.lt_irrefl _)
  have hmem : ∀ {k}, k ∈ lib'.handles → k ∈ lib.handles ∧ lib'.record k = lib.record k ∨
      k = lib.named ∧ lib'.record k = handle := by
    intro k hk
    rw [ha.handles] at hk
    rw [ha.record]
    rcases List.mem_append.mp hk with hk | hk
    · refine Or.inl ⟨hk, Function.update_of_ne ?_ _ _⟩
      rintro rfl
      exact hnew hk
    · obtain rfl := List.mem_singleton.mp hk
      exact Or.inr ⟨rfl, Function.update_self _ _ _⟩
  have hne : lib'.handles ≠ [] := by
    rw [ha.handles]
    exact List.append_ne_nil_of_right_ne_nil _ (List.cons_ne_nil _ _)
  refine ⟨?_, ?_, fun k hk => ?_, fun _ => hne, fun k hk hflags => ?_, ha.engines, fun k hk => ?_,
    fun hempty => absurd hempty hne, fun r hr => ?_⟩
  · rw [ha.useCount, ha.handles, List.length_append, h.useCount, List.length_singleton]
  · rw [ha.handles]
    refine List.nodup_append.mpr ⟨h.nodup, List.nodup_singleton _, fun a hin b hb heq => hnew ?_⟩
    rw [← List.mem_singleton.mp hb, ← heq]
    exact hin
  · rw [ha.named]
    rcases hmem hk with ⟨hk, _⟩ | ⟨rfl, _⟩
    · exact Nat.lt_succ_of_lt (h.named k hk)
    · exact Nat.lt_succ_self _
  · rcases hmem hk with ⟨hk, hrecord⟩ | ⟨_, hrecord⟩
    · rw [hrecord] at hflags
      exact ha.eventEngine (h.async k hk hflags)
    · rw [hrecord] at hflags
      exact ha.async hflags
  · rcases hmem hk with ⟨hk, hrecord⟩ | ⟨_, hrecord⟩
    · rw [hrecord, ha.registered]
      intro role e he
      rcases h.uses k hk role e he with hsupplied | hregistered
      · exact Or.inl hsupplied
      · right
        unfold remembered
        rw [if_neg (by simp [hregistered])]
        exact hregistered
    · rw [hrecord]
      exact ha.uses
  · rw [ha.held r hr, Resource.owned_append hr hnew ha.handles ha.record, h.held r hr]

/-- What a handle that is freed leaves. -/
structure Library.Dropped (lib lib' : Library) (h : ℕ) : Prop where
  handles : lib'.handles = lib.handles.erase h
  record : lib'.record = lib.record
  named : lib'.named = lib.named
  useCount : lib'.useCount = lib.useCount - 1
  eventEngine : lib'.eventEngine = (lib.eventEngine && lib.useCount - 1 ≠ 0)
  registered : lib'.engines = if lib.handles.erase h = [] then fun _ => none else lib.engines
  engines : EnginesInv lib' lib'.engines
  held : ∀ r, r.OfHandle → (lib'.held r = true ↔
    lib.held r = true ∧ r ≠ .handle h ∧ r ≠ .identity h ∧ r ≠ .cache h ∧ r ≠ .sslv23 h ∧ r ≠ .tls h)

/-- The handle is forgotten, and the engines with the last one. -/
theorem connHandleForget_spec (hinv : EnginesInv lib lib.engines) (h : ℕ) :
    EnginesInv (connHandleForget lib h) (connHandleForget lib h).engines ∧
      (connHandleForget lib h).engines = (if lib.handles.erase h = [] then fun _ => none else lib.engines) ∧
      lib.SameHandles (connHandleForget lib h) ∧ (connHandleForget lib h).handles = lib.handles.erase h ∧
      (connHandleForget lib h).record = lib.record ∧ (connHandleForget lib h).useCount = lib.useCount ∧
      (connHandleForget lib h).eventEngine = lib.eventEngine := by
  have hforget : ∀ (l : Library) (role : EngineRole), (forgetEngine l role).handles = l.handles ∧
      (forgetEngine l role).record = l.record ∧ (forgetEngine l role).useCount = l.useCount ∧
      (forgetEngine l role).eventEngine = l.eventEngine := by
    intro l role
    unfold forgetEngine
    split
    next e _ =>
      have hkept := athreadEngineDestroy_kept l e
      exact ⟨hkept.handles, hkept.record, hkept.useCount, hkept.eventEngine⟩
    · exact ⟨rfl, rfl, rfl, rfl⟩
  have herased : EnginesInv { lib with handles := lib.handles.erase h } lib.engines :=
    hinv.congr rfl rfl (fun _ => rfl) (fun _ => rfl)
  simp only [connHandleForget]
  split
  next hempty =>
    obtain ⟨hinv₁, heq₁, hsame₁⟩ := EnginesInv.forget herased .internal
    obtain ⟨hinv₂, heq₂, hsame₂⟩ := hinv₁.forget .defaultConsumer
    obtain ⟨hh₁, hr₁, hu₁, he₁⟩ := hforget { lib with handles := lib.handles.erase h } .internal
    obtain ⟨hh₂, hr₂, hu₂, he₂⟩ := hforget (forgetEngine { lib with handles := lib.handles.erase h } .internal)
      .defaultConsumer
    refine ⟨hinv₂, ?_, ⟨(hsame₁.trans hsame₂).named, (hsame₁.trans hsame₂).held⟩, hh₂.trans hh₁, hr₂.trans hr₁,
      hu₂.trans hu₁, he₂.trans he₁⟩
    rw [heq₂, heq₁]
    funext role
    cases role <;> simp
  · exact ⟨herased, rfl, ⟨rfl, fun _ _ => rfl⟩, rfl, rfl, rfl, rfl⟩

/-- `SocketLibStop` counts one caller less. -/
theorem socketLibStop_spec (lib : Library) : socketLibStop lib = { lib with
    useCount := lib.useCount - 1
    creator := (socketLibStop lib).creator
    eventEngine := lib.eventEngine && lib.useCount - 1 ≠ 0 } := by
  unfold socketLibStop
  split
  next hlast => simp [hlast]
  next hmore => simp [hmore]

/-- What is held when the memory of a handle has been freed. -/
theorem freed_held (lib : Library) (h : ℕ) (r : Resource) :
    (freeHandle (freeClientContexts (lib.release (.cache h)) h) h).held r = true ↔ lib.held r = true ∧
      r ≠ .handle h ∧ r ≠ .identity h ∧ r ≠ .cache h ∧ r ≠ .sslv23 h ∧ r ≠ .tls h := by
  have hrelease : ∀ (l : Library) (r' : Resource), (l.release r').held r = true ↔ l.held r = true ∧ r ≠ r' := by
    intro l r'
    by_cases heq : r = r' <;> simp [Library.release, heq]
  simp only [freeHandle, freeClientContexts, hrelease]
  constructor
  · rintro ⟨⟨⟨⟨⟨hheld, hcache⟩, hsslv23⟩, htls⟩, hidentity⟩, hhandle⟩
    exact ⟨hheld, hhandle, hidentity, hcache, hsslv23, htls⟩
  · rintro ⟨hheld, hhandle, hidentity, hcache, hsslv23, htls⟩
    exact ⟨⟨⟨⟨⟨hheld, hcache⟩, hsslv23⟩, htls⟩, hidentity⟩, hhandle⟩

/-- **`ConnHandleFree` takes the handle away (proved).** -/
theorem free_dropped (hinv : EnginesInv lib lib.engines) (h : ℕ) : lib.Dropped (connHandleFree lib h) h := by
  obtain ⟨hengines, hregistered, hsame, hhandles, hrecord, huseCount, hevent⟩ := connHandleForget_spec hinv h
  have hfree : connHandleFree lib h =
      freeHandle (freeClientContexts ((socketLibStop (connHandleForget lib h)).release (.cache h)) h) h := rfl
  rw [hfree, socketLibStop_spec]
  generalize connHandleForget lib h = l at hengines hregistered hsame hhandles hrecord huseCount hevent
  generalize (socketLibStop l).creator = creator
  refine ⟨hhandles, hrecord, hsame.named, ?_, ?_, hregistered, ?_, fun r hr => ?_⟩
  · rw [← huseCount]
    rfl
  · rw [← huseCount, ← hevent]
    rfl
  · refine hengines.congr rfl rfl (fun n => ?_) (fun n => ?_)
    · refine Bool.eq_iff_iff.mpr ((freed_held _ h _).trans (and_iff_left ?_))
      simp
    · refine Bool.eq_iff_iff.mpr ((freed_held _ h _).trans (and_iff_left ?_))
      simp
  · rw [← hsame.held r hr]
    exact freed_held _ h r

/-- **A handle that is freed keeps the invariant (proved).** -/
theorem LibraryInv.dropped {h : ℕ} (hi : LibraryInv lib) (hmem : h ∈ lib.handles) (hd : lib.Dropped lib' h) :
    LibraryInv lib' := by
  have hlength : lib.handles.length - 1 = (lib.handles.erase h).length := (List.length_erase_of_mem hmem).symm
  have hin : ∀ {k}, k ∈ lib'.handles → k ∈ lib.handles := by
    intro k hk
    rw [hd.handles] at hk
    exact List.mem_of_mem_erase hk
  have hne : ∀ {k}, k ∈ lib'.handles → lib.handles.erase h ≠ [] := by
    intro k hk
    rw [← hd.handles]
    exact List.ne_nil_of_mem hk
  refine ⟨?_, ?_, fun k hk => ?_, fun hev hempty => ?_, fun k hk hflags => ?_, hd.engines, fun k hk => ?_,
    fun hempty => ?_, fun r hr => ?_⟩
  · rw [hd.useCount, hd.handles, hi.useCount, hlength]
  · rw [hd.handles]
    exact hi.nodup.erase h
  · rw [hd.named]
    exact hi.named k (hin hk)
  · rw [hd.eventEngine, hi.useCount, hlength, ← hd.handles, hempty] at hev
    simp at hev
  · rw [hd.record] at hflags
    have hsome : (lib.handles.erase h).length ≠ 0 := fun hz => hne hk (List.length_eq_zero_iff.mp hz)
    rw [hd.eventEngine, hi.useCount, hlength, hi.async k (hin hk) hflags]
    simpa using hsome
  · rw [hd.record, hd.registered, if_neg (hne hk)]
    exact hi.uses k (hin hk)
  · rw [hd.registered, if_pos (hd.handles ▸ hempty)]
    exact fun _ => rfl
  · rw [hd.held r hr, Resource.owned_erase hr hi.nodup hd.handles hd.record, hi.held r hr]

/-! ### Runs -/

theorem libraryStep_inv {a : LibraryAction} (h : LibraryInv lib) (hok : a.Complete lib)
    (hs : libraryStep lib a = some lib') : LibraryInv lib' := by
  cases a with
  | alloc args env =>
    cases hs
    by_cases hvalid : args.Valid
    · obtain ⟨handle, hadded⟩ := alloc_added h.engines hvalid (hok hvalid)
      exact h.added hadded
    · rw [connHandleAllocEx_invalid hvalid]
      exact h
  | free k =>
    simp only [libraryStep] at hs
    split at hs
    next hmem =>
      cases hs
      exact h.dropped hmem (free_dropped h.engines k)
    · cases hs

/-- **A call restores the library when it fails (proved),** if and only if it is complete. -/
theorem restored_iff {a : LibraryAction} (hs : libraryStep lib a = some lib') :
    (a.Fails lib → Restored lib lib') ↔ a.Complete lib := by
  cases a with
  | free k => exact iff_of_true (fun hfails => hfails.elim) trivial
  | alloc args env =>
    cases hs
    by_cases hvalid : args.Valid
    · by_cases hok : env.Suffices lib args
      · obtain ⟨lib₁, e, _, heq⟩ := connHandleAllocEx_some hvalid hok
        refine iff_of_true (fun hfails => ?_) fun _ => hok
        change (connHandleAllocEx lib args env).2.1 = none at hfails
        rw [heq] at hfails
        cases hfails
      · obtain ⟨hnone, hkept⟩ := connHandleAllocEx_none hvalid hok
        refine iff_of_false (fun hrestored => ?_) fun hcomplete => hok (hcomplete hvalid)
        have hcount := (hrestored hnone).useCount
        rw [hkept.useCount, start_spec] at hcount
        exact absurd hcount (Nat.succ_ne_self _)
    · refine iff_of_true (fun _ => ?_) fun hv => absurd hv hvalid
      rw [connHandleAllocEx_invalid hvalid]
      exact ⟨rfl, rfl, rfl, rfl⟩

/-- The event engine is freed when the last handle is. -/
theorem eventEngine_iff {a : LibraryAction} (h : LibraryInv lib) (hs : libraryStep lib a = some lib')
    (hevent : lib.eventEngine = true) : lib'.eventEngine = false ↔ lib'.handles = [] := by
  cases a with
  | free k =>
    simp only [libraryStep] at hs
    split at hs
    next hmem =>
      cases hs
      have hd := free_dropped h.engines k
      rw [hd.eventEngine, hevent, h.useCount, hd.handles, ← List.length_erase_of_mem hmem]
      simp only [Bool.true_and, ne_eq, decide_eq_false_iff_not, not_not, List.length_eq_zero_iff]
    · cases hs
  | alloc args env =>
    cases hs
    have hne := h.eventEngine hevent
    by_cases hvalid : args.Valid
    · by_cases hok : env.Suffices lib args
      · obtain ⟨handle, hadded⟩ := alloc_added h.engines hvalid hok
        refine iff_of_false (by rw [hadded.eventEngine hevent]; simp) ?_
        rw [hadded.handles]
        exact List.append_ne_nil_of_right_ne_nil _ (List.cons_ne_nil _ _)
      · obtain ⟨_, hkept⟩ := connHandleAllocEx_none hvalid hok
        refine iff_of_false ?_ ?_
        · rw [hkept.eventEngine, start_spec, hevent]
          simp
        · rw [hkept.handles, start_spec]
          exact hne
    · rw [connHandleAllocEx_invalid hvalid]
      exact iff_of_false (by rw [hevent]; simp) hne

end Calls

/-- **The resources are counted (proved)** in every run whose allocations are complete, and there an allocation restores
the library when it fails if and only if it is complete. -/
theorem reachable_counted {lib : Library}
    (h : ReachableVia (enabled libraryStep) LibraryAction.Complete {} lib) :
    Counted lib ∧ ∀ a lib', libraryStep lib a = some lib' →
      ((a.Fails lib → Restored lib lib') ↔ a.Complete lib) ∧
        (lib.eventEngine = true → (lib'.eventEngine = false ↔ lib'.handles = [])) := by
  have hinv : LibraryInv lib := h.invariant (P := LibraryInv) libraryInv_new fun _ _ _ hi hok hs =>
    libraryStep_inv hi hok hs
  exact ⟨hinv.counted, fun a lib' hs => ⟨restored_iff hs, eventEngine_iff hinv hs⟩⟩

/-- Two handles share thread engines, which are destroyed after the second one; an allocation that fails at its
arguments stands between. -/
theorem reachable_counted_shared : ∃ lib : Library, Counted lib ∧ lib.useCount = 0 ∧
    lib.destroyed = [.created 1, .created 0] := by
  have hsuffices : ∀ lib : Library, AllocEnv.Suffices {} lib
      { identity := some ['a', '.', 'c'], flags := connHandleAsyncEnabled } := fun lib =>
    ⟨fun _ => Or.inr rfl, rfl, ⟨['a'], by decide, by decide⟩, rfl, fun _ => ⟨rfl, rfl⟩,
      fun _ _ => Or.inr (Or.inr ⟨rfl, rfl⟩), fun _ hc => (by cases hc), rfl⟩
  have hrun : ∃ lib, runFrom libraryStep {}
      [.alloc { identity := some ['a', '.', 'c'], flags := connHandleAsyncEnabled } {},
        .alloc { identity := none, flags := connHandleAsyncEnabled } {},
        .alloc { identity := some ['a', '.', 'c'], flags := connHandleAsyncEnabled } {}, .free 0, .free 1] = some lib ∧
      lib.useCount = 0 ∧ lib.destroyed = [.created 1, .created 0] := ⟨_, rfl, rfl, rfl⟩
  obtain ⟨lib, hs, hobs⟩ := hrun
  refine ⟨lib, (reachable_counted (reachableVia_of_forall LibraryAction.Complete (fun a ha s => ?_) hs)).1, hobs⟩
  simp only [List.mem_cons, List.not_mem_nil, or_false] at ha
  rcases ha with rfl | rfl | rfl | rfl | rfl
  · exact fun _ => hsuffices s
  · exact fun hvalid => absurd rfl hvalid.1
  · exact fun _ => hsuffices s
  · trivial
  · trivial

/-- **A call leaves its count behind (proved):** `ConnHandleAllocEx` has no memory for the handle, and returns NULL. -/
theorem restored_fails : ¬ ∀ lib : Library, Reachable (enabled libraryStep) {} lib →
    ∀ (a : LibraryAction) (lib' : Library), libraryStep lib a = some lib' → a.Fails lib → Restored lib lib' := by
  intro hall
  have hrestored := hall {} .init (.alloc { identity := some ['a', '.', 'c'] } { handle := false }) _ rfl rfl
  exact absurd hrestored.useCount (by decide)

end Connio
