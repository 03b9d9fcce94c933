import AwesomeAgent.Mcp.ManagerInvariant

/-!
# What runs of the manager reach

The servers are consistent with their clients, their catalogs and the registry, and every call
reaches the client whose catalog its handler was made for.
-/

namespace AwesomeAgent.McpManager

open Registry (JsonRuntime)

variable {F : Type} [JsonRuntime F] {s : Manager F}

/-- The servers agree with the registry. -/
structure Consistent (s : Manager F) : Prop where
  /-- A server has a client if and only if it has a catalog. -/
  paired : ∀ serverId server, s.servers.get? serverId = some server →
    server.client.isSome = server.catalog.isSome
  /-- A server with a client is reported as connected. -/
  connected : ∀ serverId server, s.servers.get? serverId = some server →
    server.client.isSome = true → s.statusOf server = ⟨.connected, none⟩
  /-- While the lock of a server is free, it is reported as connected only if it has a client, or
  if the drop of its last client was interrupted. -/
  reported : ∀ serverId server, s.servers.get? serverId = some server →
    server.running = none → (s.statusOf server).state = .connected →
      server.client.isSome = true ∨ dropInterrupted s.history serverId = true
  /-- The namespace of a server holds the tools of its catalog. -/
  tools : ∀ serverId server, s.servers.get? serverId = some server →
    Publishes s.registry s.handlers serverId server.catalog
  /-- The catalog of a server is that of the last generation. -/
  generation : ∀ serverId server catalog, s.servers.get? serverId = some server →
    server.catalog = some catalog → catalog.generation = server.generation ∧
      ∀ client generation names, .published serverId client generation names ∈ s.history →
        generation ≤ catalog.generation

/-- The clients are used for the tools that they listed, and closed. -/
structure Accountable (s : Manager F) : Prop where
  /-- Every event meets the law of its kind. -/
  lawful : Throughout Law s.history
  /-- A client that has not begun to close is held by one server. -/
  held : ∀ client < s.clients, .closing client ∉ s.history →
    ∃ serverId, s.Owns serverId client ∧ ∀ other, s.Owns other client → other = serverId
  /-- The client of a server has not begun to close. -/
  unclosed : ∀ serverId client, s.Owns serverId client → .closing client ∉ s.history

private theorem sound_initial (workspaceTrusted : Bool) (enablements : Dict Text Text)
    (configs : List McpServerConfig) :
    Sound (Manager.initial workspaceTrusted enablements configs : Manager F) := by
  have hfresh : ∀ serverId server, (Manager.initial workspaceTrusted enablements configs :
      Manager F).servers.get? serverId = some server →
        ∃ config, config.id = serverId ∧ Manager.fresh config = server := by
    intro serverId server hget
    obtain ⟨config, -, hid, hserver⟩ :=
      @Dict.of_get?_foldl_set _ _ _ _ McpServerConfig.id _ _ _ _ hget
    exact ⟨config, hid, hserver⟩
  refine ⟨⟨Registry.Sound.empty, ?_, ?_, throughout_nil⟩, fun serverId server hget => ?_,
    ⟨fun serverId other client hown => ?_, fun client hlt => absurd hlt (Nat.not_lt_zero _)⟩⟩
  · exact fun _ hevent => by cases hevent
  · exact fun _ hload => by cases hload
  · obtain ⟨config, rfl, rfl⟩ := hfresh serverId server hget
    refine ⟨rfl, ⟨rfl, ?_, ⟨0, ?_, fun _ _ => rfl⟩, ?_, ?_⟩, ?_, ⟨?_, ?_⟩, ?_⟩
    · exact fun _ heq => by cases heq
    · exact fun _ heq => by cases heq
    · exact fun _ _ _ hmem => by cases hmem
    · exact fun _ _ heq => by cases heq
    · exact fun _ heq => by cases heq
    · exact fun heq => by cases heq
    · exact fun ⟨_, heq⟩ => by cases heq
    · exact fun _ _ heq => by cases heq
  · obtain ⟨server, hget, hheld⟩ := hown
    obtain ⟨config, rfl, rfl⟩ := hfresh serverId server hget
    cases hheld

private theorem run_sound {compiler : SchemaCompiler F} {workspaceTrusted : Bool}
    {enablements : Dict Text Text} {configs : List McpServerConfig}
    (h : Run (Manager.step compiler) Undisturbed
      (.initial workspaceTrusted enablements configs) s) : Sound s :=
  h.invariant (I := Sound) (sound_initial _ _ _) fun _ _ _ hsound hmeets hstep =>
    hsound.step hmeets hstep

/-- In every run the servers agree with the registry. -/
theorem run_consistent {compiler : SchemaCompiler F} {workspaceTrusted : Bool}
    {enablements : Dict Text Text} {configs : List McpServerConfig}
    (h : Run (Manager.step compiler) Undisturbed
      (.initial workspaceTrusted enablements configs) s) : Consistent s := by
  have hsound := run_sound h
  refine ⟨fun serverId server hget => ?_, fun serverId server hget hclient => ?_,
    fun serverId server hget hfree hstatus => ?_, fun serverId server hget => ?_,
    fun serverId server catalog hget hcatalog => ?_⟩
  · exact (hsound.servers serverId server hget).served.paired
  · unfold Manager.statusOf
    rw [(hsound.servers serverId server hget).reports.connected hclient]
    rfl
  · have hserver := hsound.servers serverId server hget
    obtain rfl := hserver.named
    unfold Manager.statusOf at hstatus
    cases hreported : server.status with
    | none =>
      rw [hreported] at hstatus
      exact absurd hstatus (inactiveStatus_ne s server.config)
    | some status =>
      obtain ⟨state, detail⟩ := status
      rw [hreported] at hstatus
      obtain rfl : state = .connected := hstatus
      rcases hserver.reports.stale ⟨detail, hreported⟩ with hsome | hdrop | ⟨request, hrunning⟩
      · exact .inl hsome
      · exact .inr hdrop
      · rw [hfree] at hrunning
        cases hrunning
  · have hserver := hsound.servers serverId server hget
    obtain rfl := hserver.named
    exact hserver.served.tools
  · have hserver := hsound.servers serverId server hget
    obtain rfl := hserver.named
    have hgeneration := hserver.served.generation catalog hcatalog
    exact ⟨hgeneration, hgeneration ▸ hserver.served.bounded⟩

/-- In every run the clients are used for the tools that they listed. -/
theorem run_accountable {compiler : SchemaCompiler F} {workspaceTrusted : Bool}
    {enablements : Dict Text Text} {configs : List McpServerConfig}
    (h : Run (Manager.step compiler) Undisturbed
      (.initial workspaceTrusted enablements configs) s) : Accountable s := by
  have hsound := run_sound h
  refine ⟨hsound.recorded.lawful, fun client hlt hopen => ?_, fun serverId client hown => ?_⟩
  · rcases hsound.ownership.accounted client hlt with hclosed | ⟨serverId, hown⟩
    · exact absurd hclosed hopen
    · exact ⟨serverId, hown, fun other hother =>
        hsound.ownership.exclusive other serverId client hother hown⟩
  · obtain ⟨server, hget, hheld⟩ := hown
    exact ((hsound.servers serverId server hget).isOpen client hheld).unclosed

/-! ## A run -/

/-- A runtime without floats. -/
instance noFloats : JsonRuntime Empty where
  isFinite := Empty.elim
  repr := Empty.elim
  repr_ascii := fun x => x.elim
  tooDeep := fun _ => false

/-- A compiler that accepts every schema. -/
def plainCompiler : SchemaCompiler Empty := ⟨fun _ => some 1, fun _ => .ok ()⟩

/-- A server of the user. -/
def notesServer : McpServerConfig := ⟨"notes".toList, .user, true, [], by decide⟩

/-- A tool of the server is called, then the server is restarted, which is interrupted while its
client closes. -/
def interruptedActions : List (Action Empty) :=
  [.request "notes".toList ⟨.start, false⟩, .acquire "notes".toList 0 true,
    .list 0 (.tools [⟨"find".toList, none, [], []⟩]), .collect 0, .resume "notes".toList,
    .request "notes".toList ⟨.callTool "find".toList 1, false⟩, .acquire "notes".toList 0 true,
    .answer "notes".toList .result, .request "notes".toList ⟨.restart, false⟩,
    .acquire "notes".toList 0 true, .cancel "notes".toList]

/-- The events of the run. -/
def interruptedHistory : List Event :=
  [.created 0, .published "notes".toList 0 1 ["find".toList],
    .called ⟨"notes".toList, "find".toList, 1⟩ 0, .answered 0, .closing 0,
    .interrupted "notes".toList]

private theorem interrupted_reached : ∃ s : Manager Empty, s.history = interruptedHistory ∧
    Run (Manager.step plainCompiler) Undisturbed (.initial false Dict.empty [notesServer]) s := by
  cases hrun : interruptedActions.foldlM (Manager.step plainCompiler)
      (.initial false Dict.empty [notesServer]) with
  | none => exact absurd hrun (by decide)
  | some s =>
    have hend : (interruptedActions.foldlM (Manager.step plainCompiler)
        (.initial false Dict.empty [notesServer])).map Manager.history =
          some interruptedHistory := by decide
    rw [hrun] at hend
    refine ⟨s, Option.some.inj hend, Run.of_actions hrun fun t a ha => ?_⟩
    simp only [interruptedActions, List.mem_cons, List.not_mem_nil, or_false] at ha
    rcases ha with rfl | rfl | rfl | rfl | rfl | rfl | rfl | rfl | rfl | rfl | rfl <;> trivial

/-- A manager whose drop was interrupted is consistent. -/
theorem run_consistent_interrupted : ∃ s : Manager Empty,
    s.history = interruptedHistory ∧ Consistent s := by
  obtain ⟨s, hhistory, hrun⟩ := interrupted_reached
  exact ⟨s, hhistory, run_consistent hrun⟩

/-- A manager whose drop was interrupted is accountable. -/
theorem run_accountable_interrupted : ∃ s : Manager Empty,
    s.history = interruptedHistory ∧ Accountable s := by
  obtain ⟨s, hhistory, hrun⟩ := interrupted_reached
  exact ⟨s, hhistory, run_accountable hrun⟩

end AwesomeAgent.McpManager
