import AwesomeAgent.Mcp.ManagerSteps

/-!
# Runs of the manager

Every step keeps what holds of the manager, so that it holds in every state that a run reaches in
which nothing else registers tools in the namespaces of servers.
-/

namespace AwesomeAgent.McpManager

open Registry (JsonRuntime RegisteredTool RegistryOperation ToolRegistry)

variable {F : Type} {s t : Manager F} {l : Locked F} {hand : Option Nat} {pending : Nat}

/-! ## What is reported -/

variable {server : Server F}

private theorem Reports.congr {next : Server F} (h : Reports s server)
    (hclient : next.client = server.client) (hstatus : next.status = server.status)
    (hconfig : next.config = server.config)
    (hrunning : ∀ request, server.running ≠ some (request, .dropping)) : Reports s next where
  connected := by
    rw [hclient, hstatus]
    exact h.connected
  stale := by
    rw [hclient, hstatus, hconfig]
    exact fun hconnected => (h.stale hconnected).imp_right fun hstale => hstale.imp_right
      fun ⟨request, hdropping⟩ => absurd hdropping (hrunning request)

private theorem Reports.note (h : Reports s server) (event : Event)
    (hevent : event.serverId? = none) : Reports (s.note event) server where
  connected := h.connected
  stale := fun hconnected => (h.stale hconnected).imp_right fun hstale => hstale.imp_left
    fun hdrop => by
      have hne : event.serverId? ≠ some server.config.id := by
        rw [hevent]
        exact fun heq => by cases heq
      exact (dropInterrupted_concat hne).trans hdrop

private theorem withoutClient_of_none (hclient : l.server.client = none) : l.withoutClient = l := by
  obtain ⟨manager, ⟨config, client, catalog, catalogTask, generation, status, waiting, running⟩,
    request⟩ := l
  obtain rfl : client = none := hclient
  rfl

private theorem Reports.free {request : Request} {phase : Phase}
    (h : Reports s server) (hrunning : server.running = some (request, phase))
    (hphase : phase ≠ .dropping) (running : Option (Request × Phase)) :
    Reports s (server.run running) :=
  h.congr rfl rfl rfl fun other heq => by
    rw [hrunning] at heq
    exact hphase (Prod.mk.inj (Option.some.inj heq)).2

section Steps

variable [JsonRuntime F]

/-! ## Requests that wait or end -/

private theorem Holds.finish (h : Holds l none 0) (hreports : Reports l.manager (l.server.run none))
    :
    Sound l.finish :=
  h.put _ rfl (fun _ => rfl) hreports fun _ _ hnone => by cases hnone

private theorem Holds.await (phase : Phase) (h : Holds l phase.hand phase.pending)
    (hreports : Reports l.manager (l.server.run (some (l.request, phase))))
    (hphase : PhaseSound l.manager l.server phase) : Sound (l.await phase) := by
  refine h.put _ rfl (fun _ => rfl) hreports fun request other hsome => ?_
  obtain ⟨-, rfl⟩ := Prod.mk.inj (Option.some.inj hsome)
  exact hphase

private theorem Holds.finish_status (h : Holds l none 0) (hclient : l.server.client = none)
    {status : Option McpServerStatus}
    (hstatus : ∀ detail, status ≠ some ⟨.connected, detail⟩) :
    Sound (l.setStatus status).finish := by
  have hset : Holds (l.setStatus status) none 0 := h.congr rfl rfl rfl rfl
  exact hset.finish (reports_of_status hclient hstatus)

private theorem Holds.invalidateCatalog (h : Holds l none pending)
    (hclient : l.server.client = none) :
    Holds l.invalidateCatalog none pending := by
  have htake := h.take
  rwa [withoutClient_of_none hclient, hclient] at htake

/-! ## Connecting -/

private theorem Holds.openClient (h : Holds l none 0) (hclient : l.server.client = none)
    (hreports : Reports l.manager (l.server.run none)) : Sound l.openClient := by
  have hcreate : Holds ⟨l.manager.create l.server.config.id (l.server.generation + 1),
      l.server.loading (some l.manager.tasks.length), l.request⟩ (some l.manager.clients) 0 :=
    (h.create hclient (l.server.generation + 1)).congr rfl rfl rfl rfl
  have hnote := hreports.note (.created l.manager.clients) rfl
  refine Holds.await (.connecting _ _ _) hcreate ⟨hnote.connected, fun hconnected => ?_⟩
    ⟨hclient, rfl, ⟨_, _, none⟩, List.getElem?_concat_length, rfl⟩
  rcases hnote.stale hconnected with hsome | hdrop | ⟨request, hrunning⟩
  · exact .inl hsome
  · exact .inr (.inl hdrop)
  · cases hrunning

private theorem Holds.connectOneLocked (h : Holds l none 0) (hclient : l.server.client = none)
    (hreports : Reports l.manager (l.server.run none)) (factory : Bool) :
    Sound (l.connectOneLocked factory) := by
  have hcollect : Holds l.collectTask none 0 := h.congr rfl rfl rfl rfl
  have hsame : Reports l.collectTask.manager (l.collectTask.server.run none) :=
    ⟨hreports.connected, hreports.stale⟩
  unfold Locked.connectOneLocked
  split
  · exact (h.invalidateCatalog hclient).finish_status hclient fun _ heq => by cases heq
  · split
    · exact hcollect.openClient hclient hsame
    · exact hcollect.finish hsame

private theorem Holds.discard {client : Nat} (h : Holds l (some client) pending)
    (request : Request) (phase : Phase)
    (hreports : Reports l.manager (l.server.run (some (request, phase))))
    (hphase : phase.hand = some client)
    (detail : String) : Sound (l.discard client detail) := by
  refine Holds.await _ (h.close 0) ?_ (h.apart rfl)
  refine (hreports.note (.closing client) rfl).congr rfl rfl rfl fun other heq => ?_
  obtain ⟨-, rfl⟩ := Prod.mk.inj (Option.some.inj heq)
  cases hphase

private theorem Holds.withdraw {client : Nat} (h : Holds l (some client) pending) :
    Sound (l.withdraw client) := by
  have htake := h.take
  rw [h.apart rfl, Option.none_or] at htake
  have hset : Holds (l.withoutClient.invalidateCatalog.setStatus
      (some ⟨.error, some "MCP server catalog could not be published."⟩)) (some client) pending :=
    htake.congr rfl rfl rfl rfl
  exact Holds.await _ (hset.close 0) (reports_of_status rfl fun _ heq => by cases heq) rfl

private theorem Holds.publish_sound {client generation : Nat} (h : Holds l (some client) 0)
    {catalog : McpCatalog F} (hgeneration : generation = l.server.generation + 1)
    (hcatalog : catalog.generation = generation) :
    Sound (l.publish client generation catalog) := by
  subst hcatalog
  unfold Locked.publish
  split
  · exact h.withdraw
  · next tools htools =>
    have hnumbered : tools =
        numberedTools l.server.config.id catalog l.manager.handlers.length := by
      unfold registeredTools at htools
      dsimp only at htools
      split at htools
      · exact (Option.some.inj htools).symm
      · cases htools
    have hrun := Registry.run_settles
      (.replaceNamespace (namespaceOf l.server.config.id) tools) h.recorded.registry
    split
    · next registry hresult =>
      rw [hresult, hnumbered] at hrun
      exact (h.publish hgeneration hrun).finish ⟨fun _ => rfl, fun _ => .inl rfl⟩
    · exact h.withdraw

private theorem Holds.loaded {client generation : Nat} (h : Holds l (some client) 0) (task : Nat)
    (request : Request) (hreports : Reports l.manager
      (l.server.run (some (request, .connecting client task generation))))
    (hgeneration : generation = l.server.generation + 1) {outcome : LoadOutcome F}
    (houtcome : ∀ catalog, outcome = .loaded catalog → catalog.generation = generation) :
    Sound (l.loaded client generation outcome) := by
  cases outcome with
  | loaded catalog => exact h.publish_sound hgeneration (houtcome catalog rfl)
  | catalogError => exact h.discard request _ hreports rfl _
  | timedOut => exact h.discard request _ hreports rfl _
  | failed => exact h.discard request _ hreports rfl _
  | cancelled =>
    change Sound (if l.request.cancelling then _ else _)
    split
    · exact h.discard request _ hreports rfl _
    · exact h.discard request _ hreports rfl _

/-! ## Dropping and calling -/

private theorem Holds.dropped (h : Holds l none 0) (hclient : l.server.client = none)
    (factory : Bool) :
    Sound (l.dropped factory) := by
  have hinactive : ∀ detail, some l.inactiveStatus ≠ some ⟨.connected, detail⟩ :=
    fun _ heq => inactiveStatus_ne _ _ (congrArg McpServerStatus.state (Option.some.inj heq))
  unfold Locked.dropped
  split
  · exact h.finish_status hclient hinactive
  · have hset : Holds (l.setStatus (some l.inactiveStatus)) none 0 := h.congr rfl rfl rfl rfl
    dsimp only
    split
    · exact hset.connectOneLocked hclient (reports_of_status hclient hinactive) factory
    · exact h.finish_status hclient hinactive
  · exact h.finish_status hclient hinactive
  · exact h.finish_status hclient fun _ heq => by cases heq

private theorem popClient_client (l : Locked F) : l.popClient.server.client = none := by
  unfold Locked.popClient
  split <;> rfl

private theorem Holds.dropClientLocked (h : Holds l none pending) (factory : Bool) :
    Sound (l.dropClientLocked factory) := by
  unfold Locked.dropClientLocked
  split
  · refine Holds.await .dropping (h.popClient 0)
      ⟨fun hsome => ?_, fun _ => .inr (.inr ⟨_, rfl⟩)⟩ (popClient_client l)
    change l.popClient.server.client.isSome = true at hsome
    rw [popClient_client] at hsome
    cases hsome
  · exact (h.popClient 0).dropped (popClient_client l) factory

private theorem Holds.invalidateCallLocked (h : Holds l none pending) (detail : String)
    (timedOut : Bool) : Sound (l.invalidateCallLocked detail timedOut) := by
  have hset : Holds (l.popClient.setStatus (some ⟨.error, some detail⟩)) none 0 :=
    (h.popClient 0).congr rfl rfl rfl rfl
  unfold Locked.invalidateCallLocked
  dsimp only
  split
  · exact Holds.await _ hset (reports_of_status (popClient_client l) fun _ heq => by cases heq)
      (popClient_client l)
  · exact (h.popClient 0).finish_status (popClient_client l) fun _ heq => by cases heq

private theorem Holds.callTool (h : Holds l none 0)
    (hreports : Reports l.manager (l.server.run none))
    (toolName : Text) (generation : Nat) : Sound (l.callTool toolName generation) := by
  unfold Locked.callTool
  split
  · next client catalog hclient hcatalog =>
    split
    · exact h.finish hreports
    · split
      · exact h.finish hreports
      · next hgeneration =>
        split
        · exact h.finish hreports
        · next hresolve =>
          have hsome : (catalog.resolve toolName).isSome = true := by
            rw [Option.isSome_iff_ne_none]
            exact fun hnone => hresolve (by rw [hnone]; rfl)
          obtain rfl := not_not.mp hgeneration
          refine Holds.await (.calling client) (h.call hclient hcatalog hsome) ?_ hclient
          exact (hreports.note _ rfl).congr rfl rfl rfl fun _ heq => by cases heq
  · exact h.finish hreports

/-! ## Steps -/

private theorem Holds.begin (h : Holds l none 0) (hreports : Reports l.manager (l.server.run none))
    (factory : Bool) : Sound (l.begin factory) := by
  unfold Locked.begin
  split
  · split
    · exact h.dropClientLocked factory
    · split
      · exact h.finish hreports
      · next hclient =>
        exact h.connectOneLocked (Option.not_isSome_iff_eq_none.mp hclient) hreports factory
  · next toolName generation hoperation => exact h.callTool hreports toolName generation
  · exact h.dropClientLocked factory

variable {serverId : Text}

private theorem Sound.locked (h : Sound s) {server : Server F} {request : Request}
    {phase : Phase} (hserver : s.servers.get? serverId = some server)
    (hrunning : server.running = some (request, phase)) (other : Request) :
    Holds ⟨s, server, other⟩ phase.hand phase.pending ∧ PhaseSound s server phase ∧
      Reports s server := by
  have hholds := h.holds hserver server other rfl rfl rfl rfl
  unfold Server.pending at hholds
  rw [hrunning] at hholds
  have hsound := h.servers serverId server hserver
  exact ⟨hholds, hsound.phase request phase hrunning, hsound.reports⟩

omit [JsonRuntime F] in
private theorem of_proceed {f : Locked F → Phase → Option (Manager F)}
    (ht : s.proceed serverId f = some t) : ∃ server request phase,
      s.servers.get? serverId = some server ∧ server.running = some (request, phase) ∧
        f ⟨s, server, request⟩ phase = some t := by
  unfold Manager.proceed at ht
  split at ht
  · next server hserver =>
    split at ht
    · next request phase hrunning => exact ⟨server, request, phase, hserver, hrunning, ht⟩
    · cases ht
  · cases ht

private theorem Sound.closed (h : Sound s) {factory : Bool}
    (ht : s.proceed serverId (fun l phase => l.closed factory phase) = some t) : Sound t := by
  obtain ⟨server, request, phase, hserver, hrunning, hf⟩ := of_proceed ht
  obtain ⟨hholds, hphase, hreports⟩ := h.locked hserver hrunning request
  cases phase with
  | dropping =>
    cases hf
    exact hholds.dropped hphase factory
  | discarding detail =>
    cases hf
    exact (hholds.invalidateCatalog hphase).finish_status hphase fun _ heq => by cases heq
  | withdrawing =>
    cases hf
    exact hholds.finish (hreports.free hrunning (fun heq => by cases heq) none)
  | invalidated timedOut =>
    cases hf
    exact hholds.finish (hreports.free hrunning (fun heq => by cases heq) none)
  | _ => cases hf

private theorem Sound.cancel (h : Sound s) (ht : s.proceed serverId (fun l phase =>
      some (Locked.cancel { l with request := l.request.cancelled } phase)) = some t) :
    Sound t := by
  obtain ⟨server, request, phase, hserver, hrunning, hf⟩ := of_proceed ht
  obtain ⟨hholds, hphase, hreports⟩ := h.locked hserver hrunning request.cancelled
  cases hf
  cases phase with
  | dropping =>
    refine Holds.finish hholds.interrupt ⟨hreports.connected, fun _ => .inr (.inl ?_)⟩
    exact dropInterrupted_interrupted _ _
  | discarding detail =>
    exact hholds.finish (hreports.free hrunning (fun heq => by cases heq) none)
  | withdrawing =>
    exact hholds.finish (hreports.free hrunning (fun heq => by cases heq) none)
  | invalidated timedOut =>
    cases timedOut with
    | true => exact hholds.invalidateCallLocked _ _
    | false => exact hholds.finish (hreports.free hrunning (fun heq => by cases heq) none)
  | connecting client task generation =>
    refine hholds.discard request (.connecting client task generation) ?_ rfl _
    exact hreports.free hrunning (fun heq => by cases heq) _
  | calling client => exact hholds.invalidateCallLocked _ _

private theorem Sound.timeout (h : Sound s)
    (ht : s.proceed serverId Locked.timeout = some t) : Sound t := by
  obtain ⟨server, request, phase, hserver, hrunning, hf⟩ := of_proceed ht
  obtain ⟨hholds, hphase, hreports⟩ := h.locked hserver hrunning request
  cases phase with
  | connecting client task generation =>
    simp only [Locked.timeout] at hf
    split at hf
    · cases hf
      refine hholds.discard request (.connecting client task generation) ?_ rfl _
      exact hreports.free hrunning (fun heq => by cases heq) _
    · cases hf
  | calling client =>
    cases hf
    exact hholds.invalidateCallLocked _ _
  | _ => cases hf

private theorem Sound.resume (h : Sound s) (ht : s.proceed serverId Locked.resume = some t) :
    Sound t := by
  obtain ⟨server, request, phase, hserver, hrunning, hf⟩ := of_proceed ht
  obtain ⟨hholds, hphase, hreports⟩ := h.locked hserver hrunning request
  cases phase with
  | connecting client task generation =>
    obtain ⟨hclient, hgeneration, load, hload, hsame⟩ := hphase
    obtain ⟨outcome, houtcome, rfl⟩ := Option.map_eq_some_iff.mp hf
    obtain ⟨other, hother, houtcome⟩ := Option.bind_eq_some_iff.mp houtcome
    obtain rfl := Option.some.inj (hload.symm.trans hother)
    refine hholds.loaded task request ?_ hgeneration fun catalog heq => ?_
    · exact hreports.free hrunning (fun heq => by cases heq) _
    · have hloads := h.recorded.loads load (List.mem_of_getElem? hload) catalog (heq ▸ houtcome)
      exact hloads.trans hsame
  | _ => cases hf

private theorem Sound.answer (h : Sound s) {outcome : CallOutcome}
    (ht : s.proceed serverId (fun l phase => l.answer outcome phase) = some t) : Sound t := by
  obtain ⟨server, request, phase, hserver, hrunning, hf⟩ := of_proceed ht
  obtain ⟨hholds, hphase, hreports⟩ := h.locked hserver hrunning request
  cases phase with
  | calling client =>
    cases outcome with
    | result =>
      cases hf
      refine (hholds.answer hphase).finish ?_
      exact (hreports.free hrunning (fun heq => by cases heq) none).note _ rfl
    | raised =>
      cases hf
      exact hholds.invalidateCallLocked _ _
    | cancelled =>
      cases hf
      exact hholds.invalidateCallLocked _ _
  | _ => cases hf

private theorem Sound.put (h : Sound s) {server next : Server F}
    (hserver : s.servers.get? serverId = some server) (hconfig : next.config = server.config)
    (hclient : next.client = server.client) (hcatalog : next.catalog = server.catalog)
    (hgeneration : next.generation = server.generation) (hstatus : next.status = server.status)
    (hrunning : next.running = server.running) : Sound (s.put next) := by
  have hsound := h.servers serverId server hserver
  have hholds := h.holds hserver next ⟨.close, false⟩ hconfig hclient hcatalog hgeneration
  have hsame : next.run server.running = next := by
    rw [← hrunning]
    rfl
  have hput := hholds.put server.running rfl (fun _ => rfl) ⟨?_, ?_⟩
    fun request phase heq => ?_
  · rwa [hsame] at hput
  · change next.client.isSome = true → next.status = _
    rw [hclient, hstatus]
    exact hsound.reports.connected
  · change (∃ detail, next.status = _) → next.client.isSome = true ∨
      dropInterrupted s.history next.config.id = true ∨ _
    rw [hclient, hstatus, hconfig]
    exact hsound.reports.stale
  · have hphase := hsound.phase request phase heq
    cases phase with
    | connecting client task generation =>
      exact ⟨hclient.trans hphase.1, hphase.2.1.trans (congrArg (· + 1) hgeneration.symm),
        hphase.2.2⟩
    | _ => exact hclient.trans hphase

private theorem Sound.change (h : Sound s) (hservers : t.servers = s.servers)
    (hclients : t.clients = s.clients) (hhistory : t.history = s.history)
    (hhandlers : t.handlers = s.handlers) (hregistry : Registry.Sound t.registry.items)
    (hnames : ∀ config : McpServerConfig, ∀ name,
      Registry.belongsTo (namespaceOf config.id) name = true →
        Registry.resolve t.registry name = Registry.resolve s.registry name)
    (htasks : ∀ (task : Nat) (load : CatalogTask F), s.tasks[task]? = some load →
      ∃ next, t.tasks[task]? = some next ∧ next.generation = load.generation)
    (hloads : ∀ load ∈ t.tasks, ∀ catalog, load.outcome = some (.loaded catalog) →
      catalog.generation = load.generation) : Sound t := by
  refine ⟨⟨hregistry, ?_, hloads, ?_⟩, fun serverId server hserver => ?_, ?_⟩
  · rw [hhistory, hclients]
    exact h.recorded.fresh
  · rw [hhistory]
    exact h.recorded.lawful
  · rw [hservers] at hserver
    have hsound := h.servers serverId server hserver
    obtain rfl := hsound.named
    exact hsound.frame ⟨hnames server.config, hhandlers ▸ List.prefix_refl _, htasks, .inl hhistory⟩
  · rw [hclients, hhistory]
    refine h.ownership.congr fun serverId client => ?_
    unfold Manager.Owns
    rw [hservers]

/-- Nothing else registers tools in the namespaces of servers. -/
def Undisturbed (_ : Manager F) : Action F → Prop
  | .register operation => ∀ config : McpServerConfig, ∀ name,
      Registry.belongsTo (namespaceOf config.id) name = true → operation.manages name = false
  | _ => True

private theorem Sound.register (h : Sound s) {operation : RegistryOperation F}
    (hundisturbed : Undisturbed s (.register operation)) : Sound (s.register operation) := by
  have hsettles := Registry.run_settles operation h.recorded.registry
  have hnames : ∀ config : McpServerConfig, ∀ name,
      Registry.belongsTo (namespaceOf config.id) name = true →
        Registry.resolve (operation.after s.registry) name = Registry.resolve s.registry name := by
    intro config name hname
    unfold RegistryOperation.after
    cases hresult : operation.run s.registry with
    | ok _ registry =>
      rw [hresult] at hsettles
      refine (hsettles.2 name).trans (if_neg ?_)
      exact fun hmanages =>
        Bool.false_ne_true ((hundisturbed config name hname).symm.trans hmanages)
    | error _ registry =>
      rw [hresult] at hsettles
      exact congrArg (Registry.resolve · name) hsettles
  exact h.change rfl rfl rfl rfl (Registry.sound_after operation h.recorded.registry) hnames
    (fun _ load hload => ⟨load, hload, rfl⟩) h.recorded.loads

private theorem Sound.list (h : Sound s) {compiler : SchemaCompiler F} {task : Nat}
    {load : CatalogTask F} (hload : s.tasks[task]? = some load) (listing : Listing F) :
    Sound { s with tasks := s.tasks.set task { load with
      outcome := some (loadCatalog compiler load listing) } } := by
  obtain ⟨hlt, hget⟩ := List.getElem?_eq_some_iff.mp hload
  refine h.change rfl rfl rfl rfl h.recorded.registry (fun _ _ _ => rfl) (fun i other hother => ?_)
    fun other hother catalog houtcome => ?_
  · by_cases heq : task = i
    · subst heq
      obtain rfl := Option.some.inj (hload.symm.trans hother)
      exact ⟨_, List.getElem?_set_self hlt, rfl⟩
    · exact ⟨other, (List.getElem?_set_ne heq).trans hother, rfl⟩
  · rcases List.mem_or_eq_of_mem_set hother with hother | rfl
    · exact h.recorded.loads other hother catalog houtcome
    · have hloaded := Option.some.inj houtcome
      unfold loadCatalog at hloaded
      split at hloaded
      · split at hloaded
        · next compiled hcompile =>
          cases hloaded
          unfold compileMcpCatalog at hcompile
          split at hcompile
          · cases hcompile
          · split at hcompile
            · cases hcompile
            · cases hresult : compileTools compiler load.serverId _ [] 0 with
              | error message =>
                rw [hresult] at hcompile
                cases hcompile
              | ok _ =>
                rw [hresult] at hcompile
                cases hcompile
                rfl
        · cases hloaded
      · cases hloaded
      · cases hloaded
      · cases hloaded

/-- Every step keeps what holds of the manager. -/
theorem Sound.step (h : Sound s) {compiler : SchemaCompiler F} {a : Action F}
    (hundisturbed : Undisturbed s a) (ht : s.step compiler a = some t) : Sound t := by
  cases a with
  | publishEnablement serverId configHash =>
    simp only [Manager.step] at ht
    split at ht
    · cases ht
      exact h.change rfl rfl rfl rfl h.recorded.registry (fun _ _ _ => rfl)
        (fun _ load hload => ⟨load, hload, rfl⟩) h.recorded.loads
    · cases ht
  | request serverId request =>
    simp only [Manager.step] at ht
    split at ht
    · next server hserver =>
      split at ht
      · cases ht
        exact h.put hserver rfl rfl rfl rfl rfl rfl
      · cases ht
        exact h
    · cases ht
  | abandon serverId i =>
    simp only [Manager.step] at ht
    split at ht
    · next server hserver =>
      cases ht
      exact h.put hserver rfl rfl rfl rfl rfl rfl
    · cases ht
  | acquire serverId i factory =>
    simp only [Manager.step] at ht
    split at ht
    · next server hserver =>
      split at ht
      · next request hrunning hrequest =>
        cases ht
        have hholds := h.holds hserver (server.queue (server.waiting.eraseIdx i)) request rfl rfl
          rfl rfl
        unfold Server.pending at hholds
        rw [hrunning] at hholds
        have hreports := (h.servers serverId server hserver).reports
        refine hholds.begin (hreports.congr rfl rfl rfl fun _ heq => ?_) factory
        rw [hrunning] at heq
        cases heq
      · cases ht
    · cases ht
  | closed serverId factory => exact h.closed ht
  | cancel serverId => exact h.cancel ht
  | timeout serverId => exact h.timeout ht
  | list task listing =>
    simp only [Manager.step] at ht
    split at ht
    · next load hload =>
      split at ht
      · cases ht
        exact h.list hload listing
      · cases ht
    · cases ht
  | collect task =>
    simp only [Manager.step] at ht
    split at ht
    · split at ht
      · next server _ hserver =>
        split at ht
        · cases ht
          exact h.put hserver rfl rfl rfl rfl rfl rfl
        · cases ht
          exact h
      · cases ht
    · cases ht
  | resume serverId => exact h.resume ht
  | answer serverId outcome => exact h.answer ht
  | register operation =>
    cases ht
    exact h.register hundisturbed

end Steps

end AwesomeAgent.McpManager
