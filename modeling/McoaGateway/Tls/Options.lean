/-
TLS options of upstreams (`tls/options.go`).

Run groups are variables with addresses: a function that takes a group by value
works on a copy.  A run of the second part interleaves the polls of the watcher
with calls of `NewClientConfig`, and what a configuration trusts is read through
the address it holds.  The ledger knows no addresses: it keeps, for each
configuration, the certificates that had been loaded when it was made.
-/

import McoaGateway.Tls.CaWatcher

namespace McoaGateway.Tls

/-! ### Run groups -/

/-- The actors of a run group: those of the caller, and the reloaders of one
call. -/
inductive Actor (Caller : Type) where
  | caller (actor : Caller)
  | certReloader
  | caReloader
deriving DecidableEq, Repr

section

variable {Caller : Type}

/-- The variables of type `run.Group`, with their slices of actors. -/
abbrev Groups (Caller : Type) := List (List (Actor Caller))

def Groups.read (groups : Groups Caller) (g : Nat) : List (Actor Caller) :=
  groups.getD g []

/-- A group that is passed by value: the variable of the function called. -/
def Groups.copy (groups : Groups Caller) (g : Nat) : Groups Caller × Nat :=
  (groups ++ [groups.read g], groups.length)

/-- `Add`, which has a pointer receiver. -/
def Groups.add (groups : Groups Caller) (g : Nat) (actor : Actor Caller) : Groups Caller :=
  groups.modify g (· ++ [actor])

/-- What is configured for an upstream, and whether the reloaders can be
made. -/
structure Files where
  upstreamCertFile : GoString
  upstreamKeyFile : GoString
  upstreamCAFile : GoString
  certLoads : Bool
  caLoads : Bool
deriving DecidableEq, Repr

def Files.certConfigured (files : Files) : Bool :=
  files.upstreamCertFile ≠ [] && files.upstreamKeyFile ≠ []

def Files.caConfigured (files : Files) : Bool :=
  files.upstreamCAFile ≠ []

/-! ### `NewUpstreamOptions` -/

def startReloader (loads : Bool) (reloader : Actor Caller) (groups : Groups Caller) (g : Nat) :
    Option (Actor Caller) × Groups Caller :=
  if loads then (some reloader, groups.add g reloader) else (none, groups)

def startCertReloader (files : Files) (groups : Groups Caller) (g : Nat) :
    Option (Actor Caller) × Groups Caller :=
  startReloader files.certLoads .certReloader groups g

def startCAReloader (files : Files) (groups : Groups Caller) (g : Nat) :
    Option (Actor Caller) × Groups Caller :=
  startReloader files.caLoads .caReloader groups g

/-- A call of one of the two functions, if its files are configured: the
reloaders it gives, or `none` for an error. -/
def callReloader (configured : Bool)
    (start : Groups Caller → Nat → Option (Actor Caller) × Groups Caller)
    (groups : Groups Caller) (g : Nat) : Option (List (Actor Caller)) × Groups Caller :=
  if configured then
    let (groups, copy) := groups.copy g
    let (reloader, groups) := start groups copy
    (reloader.map fun reloader => [reloader], groups)
  else (some [], groups)

def newWithWatchers (files : Files) (groups : Groups Caller) (g : Nat) :
    Option (List (Actor Caller)) × Groups Caller :=
  let cert := callReloader files.certConfigured (startCertReloader files) groups g
  match cert.1 with
  | none => (none, cert.2)
  | some certReloader =>
      let ca := callReloader files.caConfigured (startCAReloader files) cert.2 g
      (ca.1.map fun caReloader => certReloader ++ caReloader, ca.2)

def newUpstreamOptions (reloads : Bool) (files : Files) (groups : Groups Caller) (g : Nat) :
    Option (List (Actor Caller)) × Groups Caller :=
  if reloads then
    let (groups, copy) := groups.copy g
    newWithWatchers files groups copy
  else (some [], groups)

/-- The call in `main`, which has the group `g`. -/
def callNewUpstreamOptions (reloads : Bool) (files : Files) (groups : Groups Caller) (g : Nat) :
    Option (List (Actor Caller)) × Groups Caller :=
  let (groups, copy) := groups.copy g
  newUpstreamOptions reloads files groups copy

/-! ### The group of the caller -/

/-- The variables that exist before a call keep their values. -/
def Keeps (groups after : Groups Caller) : Prop :=
  groups.length ≤ after.length ∧ ∀ g, g < groups.length → Groups.read after g = groups.read g

theorem Keeps.refl (groups : Groups Caller) : Keeps groups groups :=
  ⟨le_refl _, fun _ _ => rfl⟩

theorem Keeps.trans {groups middle after : Groups Caller} (first : Keeps groups middle)
    (second : Keeps middle after) : Keeps groups after := by
  refine ⟨first.1.trans second.1, ?_⟩
  intro g exists_
  rw [second.2 g (exists_.trans_le first.1), first.2 g exists_]

theorem keeps_copy (groups : Groups Caller) (g : Nat) : Keeps groups (groups.copy g).1 := by
  refine ⟨by simp [Groups.copy], ?_⟩
  intro address exists_
  simp only [Groups.copy, Groups.read, List.getD_eq_getElem?_getD,
    List.getElem?_append_left exists_]

theorem keeps_add (groups middle : Groups Caller) (g : Nat) (actor : Actor Caller)
    (keeps : Keeps groups middle) (isNew : groups.length ≤ g) :
    Keeps groups (middle.add g actor) := by
  refine ⟨by simpa [Groups.add] using keeps.1, ?_⟩
  intro address exists_
  have different : g ≠ address := by omega
  rw [← keeps.2 address exists_]
  simp only [Groups.add, Groups.read, List.getD_eq_getElem?_getD, List.getElem?_modify,
    if_neg different, id_map']

theorem keeps_callReloader (configured loads : Bool) (reloader : Actor Caller)
    (groups : Groups Caller) (g : Nat) :
    Keeps groups (callReloader configured (startReloader loads reloader) groups g).2 := by
  unfold callReloader startReloader
  split
  · dsimp only
    split
    · exact keeps_add _ _ _ _ (keeps_copy groups g) (le_refl _)
    · exact keeps_copy groups g
  · exact Keeps.refl groups

theorem keeps_newWithWatchers (files : Files) (groups : Groups Caller) (g : Nat) :
    Keeps groups (newWithWatchers files groups g).2 := by
  have first := keeps_callReloader files.certConfigured files.certLoads .certReloader groups g
  unfold newWithWatchers
  dsimp only
  split
  · exact first
  · exact first.trans (keeps_callReloader _ files.caLoads .caReloader _ g)

theorem keeps_callNewUpstreamOptions (reloads : Bool) (files : Files) (groups : Groups Caller)
    (g : Nat) : Keeps groups (callNewUpstreamOptions reloads files groups g).2 := by
  have copied := keeps_copy groups g
  unfold callNewUpstreamOptions newUpstreamOptions
  dsimp only
  split
  · exact copied.trans ((keeps_copy _ _).trans (keeps_newWithWatchers files _ _))
  · exact copied

/-- The reloaders that a call makes; `none` when one of them cannot be made. -/
def Files.reloaders (files : Files) : Option (List (Actor Caller)) :=
  if files.certConfigured && !files.certLoads || files.caConfigured && !files.caLoads then none
  else some ((if files.certConfigured then [.certReloader] else []) ++
    if files.caConfigured then [.caReloader] else [])

theorem callReloader_fst (configured loads : Bool) (reloader : Actor Caller)
    (groups : Groups Caller) (g : Nat) :
    (callReloader configured (startReloader loads reloader) groups g).1 =
      if configured && !loads then none else some (if configured then [reloader] else []) := by
  unfold callReloader startReloader
  cases configured with
  | true =>
      cases loads with
      | true => rfl
      | false => rfl
  | false => rfl

theorem newWithWatchers_fst (files : Files) (groups : Groups Caller) (g : Nat) :
    (newWithWatchers files groups g).1 = files.reloaders := by
  have first := callReloader_fst files.certConfigured files.certLoads
    (.certReloader : Actor Caller) groups g
  have second := callReloader_fst files.caConfigured files.caLoads
    (.caReloader : Actor Caller)
    (callReloader files.certConfigured (startCertReloader files) groups g).2 g
  unfold newWithWatchers Files.reloaders
  dsimp only
  cases failsFirst : files.certConfigured && !files.certLoads with
  | true =>
      rw [failsFirst, if_pos rfl] at first
      rw [show (callReloader files.certConfigured (startCertReloader files) groups g).1 = none
        from first]
      rfl
  | false =>
      rw [failsFirst, if_neg Bool.false_ne_true] at first
      rw [show (callReloader files.certConfigured (startCertReloader files) groups g).1 =
        some (if files.certConfigured then [.certReloader] else []) from first]
      dsimp only
      rw [show (callReloader files.caConfigured (startCAReloader files) _ g).1 = _ from second]
      cases files.caConfigured && !files.caLoads with
      | true => rfl
      | false => rfl

theorem callNewUpstreamOptions_fst (reloads : Bool) (files : Files) (groups : Groups Caller)
    (g : Nat) :
    (callNewUpstreamOptions reloads files groups g).1 =
      if reloads then files.reloaders else some [] := by
  unfold callNewUpstreamOptions newUpstreamOptions
  dsimp only
  split
  · exact newWithWatchers_fst files _ _
  · rfl

/-- Every reloader that a call makes is an actor of the caller's group, which
had the actors `actors` before. -/
def ReloadersRun (reloads : Bool) (files : Files) (actors : List Caller) : Prop :=
  let called := callNewUpstreamOptions reloads files [actors.map .caller] 0
  ∀ reloaders, called.1 = some reloaders → ∀ reloader ∈ reloaders, reloader ∈ called.2.read 0

/-- No reloader is made: there is none to make, or one cannot be made. -/
def NoReloader (reloads : Bool) (files : Files) : Prop :=
  reloads = false ∨ files.certConfigured = false ∧ files.caConfigured = false ∨
    files.certConfigured = true ∧ files.certLoads = false ∨
    files.caConfigured = true ∧ files.caLoads = false

theorem reloadersRun_iff (reloads : Bool) (files : Files) (actors : List Caller) :
    ReloadersRun reloads files actors ↔ NoReloader reloads files := by
  have unchanged : (callNewUpstreamOptions reloads files [actors.map .caller] 0).2.read 0 =
      actors.map .caller :=
    (keeps_callNewUpstreamOptions reloads files [actors.map .caller] 0).2 0 Nat.zero_lt_one
  unfold ReloadersRun NoReloader
  dsimp only
  rw [unchanged, callNewUpstreamOptions_fst]
  cases reloads with
  | false => simp
  | true =>
      unfold Files.reloaders
      cases files.certConfigured with
      | true =>
          cases files.certLoads with
          | true =>
              cases files.caConfigured with
              | true => cases files.caLoads <;> simp
              | false => simp
          | false => simp
      | false =>
          cases files.caConfigured with
          | true => cases files.caLoads <;> simp
          | false => simp

end

/-! ### `NewClientConfig` -/

/-- `UpstreamOptions`; of a certificate reloader it only matters that it is
there. -/
structure UpstreamOptions where
  cert : Option GoString
  ca : GoString
  certReloader : Bool
  caReloader : Option Watcher
deriving DecidableEq, Repr

def UpstreamOptions.hasCA (uo : UpstreamOptions) : Bool :=
  uo.ca.length ≠ 0 || uo.caReloader.isSome

inductive ClientCertificate where
  | absent
  | fixed (cert : GoString)
  -- The callback asks the reloader at each handshake.
  | reloaded
deriving DecidableEq, Repr

def UpstreamOptions.clientCertificate (uo : UpstreamOptions) : ClientCertificate :=
  if uo.certReloader then .reloaded else uo.cert.elim .absent .fixed

/-- What is set in a `tls.Config`; `rootCAs` is an address. -/
structure ClientConfig where
  clientCertificate : ClientCertificate
  rootCAs : Nat
deriving DecidableEq, Repr

def newClientConfig (certificates : Certificates) (uo : UpstreamOptions) (pools : Pools) :
    Option ClientConfig × Pools :=
  if uo.hasCA then
    match uo.caReloader with
    | some caReloader => (some ⟨uo.clientCertificate, caReloader.certPool⟩, pools)
    | none =>
        (some ⟨uo.clientCertificate, pools.length⟩, pools ++ [certificates.parse uo.ca])
  else (none, pools)

/-! ### Configurations over time -/

inductive Event where
  -- What the file holds when it is hashed and when it is read.
  | poll (hashed content : Option GoString)
  | newClientConfig
deriving DecidableEq, Repr

/-- The pools, the options with their watcher, whether its loop is running, and
the configurations that were returned. -/
structure State where
  pools : Pools
  certReloader : Bool
  watcher : Watcher
  watching : Bool
  configs : List ClientConfig
deriving DecidableEq, Repr

/-- With the empty pool of `newWithWatchers`, before its first load. -/
def State.new (certReloader : Bool) : State :=
  ⟨[[]], certReloader, ⟨0, []⟩, true, []⟩

def State.options (state : State) : UpstreamOptions :=
  ⟨none, [], state.certReloader, some state.watcher⟩

section

variable (certificates : Certificates)

def State.step (state : State) : Event → State
  | .poll hashed content =>
      if state.watching then
        let result := loadCA certificates hashed content state.pools state.watcher
        { state with
          pools := result.pools
          watcher := result.watcher
          watching := !result.failed }
      else state
  | .newClientConfig =>
      let (config, pools) := Tls.newClientConfig certificates state.options state.pools
      { state with pools, configs := state.configs ++ config.toList }

theorem State.step_newClientConfig (state : State) :
    state.step certificates .newClientConfig =
      { state with
        configs := state.configs ++ [⟨state.options.clientCertificate,
          state.watcher.certPool⟩] } := by
  rfl

def State.loads (state : State) : Event → List GoString
  | .poll hashed content =>
      if state.watching then
        ((loadedBy certificates state.watcher.fileHashContent hashed content).map
          Prod.snd).getD []
      else []
  | .newClientConfig => []

/-- After each poll that loads a new CA, the configurations returned earlier
trust its certificates. -/
def RotationReaches : State → List Event → Prop
  | _, [] => True
  | state, event :: rest =>
      (∀ config ∈ state.configs, ∀ certificate ∈ state.loads certificates event,
        certificate ∈ (state.step certificates event).pools.read config.rootCAs) ∧
      RotationReaches (state.step certificates event) rest

/-! ### The ledger -/

/-- What has been loaded, and for each configuration what had been loaded when
it was made. -/
structure Ledger where
  fileHashContent : GoString
  loaded : List GoString
  watching : Bool
  trusted : List (List GoString)
deriving DecidableEq, Repr

def Ledger.new : Ledger :=
  ⟨[], [], true, []⟩

def Ledger.step (ledger : Ledger) : Event → Ledger
  | .poll hashed content =>
      if ledger.watching then
        let watching := !pollFails certificates ledger.fileHashContent hashed content
        match loadedBy certificates ledger.fileHashContent hashed content with
        | none => { ledger with watching }
        | some (hash, added) =>
            { ledger with fileHashContent := hash, loaded := ledger.loaded ++ added, watching }
      else ledger
  | .newClientConfig => { ledger with trusted := ledger.trusted ++ [ledger.loaded] }

def Ledger.loads (ledger : Ledger) : Event → List GoString
  | .poll hashed content =>
      if ledger.watching then
        ((loadedBy certificates ledger.fileHashContent hashed content).map Prod.snd).getD []
      else []
  | .newClientConfig => []

/-- No poll loads a certificate that had not been loaded when a configuration
was made. -/
def NothingNew : Ledger → List Event → Prop
  | _, [] => True
  | ledger, event :: rest =>
      (∀ trusted ∈ ledger.trusted, ∀ certificate ∈ ledger.loads certificates event,
        certificate ∈ trusted) ∧
      NothingNew (ledger.step certificates event) rest

/-- A state with addresses and the ledger of the same run. -/
structure Tracks (state : State) (ledger : Ledger) : Prop where
  fileHashContent : state.watcher.fileHashContent = ledger.fileHashContent
  watching : state.watching = ledger.watching
  allocated : state.watcher.certPool < state.pools.length
  loaded : state.pools.read state.watcher.certPool = ledger.loaded
  addresses : ∀ config ∈ state.configs, config.rootCAs < state.pools.length
  trusted : state.configs.map (fun config => state.pools.read config.rootCAs) = ledger.trusted

theorem tracks_new (certReloader : Bool) : Tracks (State.new certReloader) Ledger.new :=
  ⟨rfl, rfl, Nat.zero_lt_one, rfl, fun _ member => (List.not_mem_nil member).elim, rfl⟩

variable {state : State} {ledger : Ledger}

theorem State.read_step (state : State) (event : Event) (address : Nat)
    (known : address < state.pools.length) :
    (state.step certificates event).pools.read address = state.pools.read address := by
  cases event with
  | newClientConfig => rfl
  | poll hashed content =>
      rw [State.step]
      split
      · have result := loadCA_eq certificates hashed content state.pools state.watcher
        dsimp only
        cases loads : loadedBy certificates state.watcher.fileHashContent hashed content with
        | none =>
            rw [loads] at result
            rw [(Prod.mk.inj result).1]
        | some loaded =>
            rw [loads] at result
            rw [(Prod.mk.inj result).1]
            exact Pools.read_append _ _ _ known
      · rfl

theorem Tracks.loads (tracks : Tracks state ledger) (event : Event) :
    state.loads certificates event = ledger.loads certificates event := by
  cases event with
  | newClientConfig => rfl
  | poll hashed content =>
      rw [State.loads, Ledger.loads, tracks.watching, tracks.fileHashContent]

theorem Tracks.poll (tracks : Tracks state ledger) (hashed content : Option GoString)
    (watching : Bool) :
    Tracks
      { state with
        pools := (loadCA certificates hashed content state.pools state.watcher).pools
        watcher := (loadCA certificates hashed content state.pools state.watcher).watcher
        watching }
      (match loadedBy certificates ledger.fileHashContent hashed content with
        | none => { ledger with watching }
        | some (hash, added) =>
            { ledger with
              fileHashContent := hash, loaded := ledger.loaded ++ added, watching }) := by
  have result := loadCA_eq certificates hashed content state.pools state.watcher
  rw [tracks.fileHashContent] at result
  cases loads : loadedBy certificates ledger.fileHashContent hashed content with
  | none =>
      rw [loads] at result
      obtain ⟨pools, watcher⟩ := Prod.mk.inj result
      rw [pools, watcher]
      exact ⟨tracks.fileHashContent, rfl, tracks.allocated, tracks.loaded, tracks.addresses,
        tracks.trusted⟩
  | some loaded =>
      obtain ⟨hash, added⟩ := loaded
      rw [loads] at result
      obtain ⟨pools, watcher⟩ := Prod.mk.inj result
      rw [pools, watcher]
      have grows : state.pools.length <
          (state.pools ++ [state.pools.read state.watcher.certPool ++ added]).length := by
        simp
      refine ⟨rfl, rfl, grows, ?_, ?_, ?_⟩
      · exact (Pools.read_new _ _).trans (by rw [tracks.loaded])
      · exact fun config member => (tracks.addresses config member).trans grows
      · rw [← tracks.trusted]
        apply List.map_congr_left
        intro config member
        exact Pools.read_append _ _ _ (tracks.addresses config member)

theorem Tracks.step (tracks : Tracks state ledger) (event : Event) :
    Tracks (state.step certificates event) (ledger.step certificates event) := by
  cases event with
  | newClientConfig =>
      rw [State.step_newClientConfig]
      refine ⟨tracks.fileHashContent, tracks.watching, tracks.allocated, tracks.loaded, ?_, ?_⟩
      · intro config member
        rcases List.mem_append.mp member with earlier | isNew
        · exact tracks.addresses config earlier
        · rw [List.mem_singleton.mp isNew]
          exact tracks.allocated
      · rw [Ledger.step]
        dsimp only
        rw [List.map_append, List.map_singleton, tracks.loaded, tracks.trusted]
  | poll hashed content =>
      rw [State.step, Ledger.step, tracks.watching]
      split
      · have polled := tracks.poll certificates hashed content
          (!pollFails certificates ledger.fileHashContent hashed content)
        dsimp only
        rw [loadCA_failed, tracks.fileHashContent]
        exact polled
      · exact tracks

theorem rotationReaches_iff (tracks : Tracks state ledger) (events : List Event) :
    RotationReaches certificates state events ↔ NothingNew certificates ledger events := by
  induction events generalizing state ledger with
  | nil => exact Iff.rfl
  | cons event rest ih =>
      rw [RotationReaches, NothingNew, ih (tracks.step certificates event),
        tracks.loads certificates event, ← tracks.trusted]
      refine and_congr_left fun _ => ?_
      rw [List.forall_mem_map]
      constructor
      · intro reaches config member certificate isLoaded
        have trusts := reaches config member certificate isLoaded
        rwa [state.read_step certificates event _ (tracks.addresses config member)] at trusts
      · intro known config member certificate isLoaded
        rw [state.read_step certificates event _ (tracks.addresses config member)]
        exact known config member certificate isLoaded

/-- New certificates reach the configurations made earlier exactly if there is
nothing new in them, and the reloaders run exactly if there are none. -/
theorem caRotation_iff {Caller : Type} (reloads : Bool) (files : Files) (actors : List Caller)
    (certReloader : Bool) (events : List Event) :
    (RotationReaches certificates (State.new certReloader) events ↔
      NothingNew certificates Ledger.new events) ∧
      (ReloadersRun reloads files actors ↔ NoReloader reloads files) :=
  ⟨rotationReaches_iff certificates (tracks_new certReloader) events,
    reloadersRun_iff reloads files actors⟩

end

/-! Two contents of one certificate each, and a configuration made between
them. -/

def oneCertificate : Certificates :=
  ⟨fun content => [content], fun content => content⟩

def rotation : List Event :=
  [.poll (some [1]) (some [1]), .newClientConfig, .poll (some [2]) (some [2])]

def caFileOnly : Files :=
  ⟨[], [], [1], true, true⟩

theorem rotation_not_reached :
    ¬ RotationReaches oneCertificate (State.new false) rotation ∧
      ¬ ReloadersRun true caFileOnly ([] : List Unit) := by
  constructor
  · rintro ⟨_, _, reaches, _⟩
    exact absurd (reaches ⟨.absent, 1⟩ (by decide) [2] (by decide)) (by decide)
  · intro run
    exact absurd (run [.caReloader] (by decide) .caReloader (by decide)) (by decide)

end McoaGateway.Tls
