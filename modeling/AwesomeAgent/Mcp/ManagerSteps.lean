import AwesomeAgent.Mcp.ManagerState

/-!
# Steps of the manager

While a request goes on, everything that holds of the manager holds of the server that it has
locked and of the client in its hand. When it waits or ends, it holds of the manager again.
-/

namespace AwesomeAgent.McpManager

open Registry (JsonRuntime RegisteredTool RegistryOperation ToolRegistry)

variable {F : Type} {s t : Manager F}

/-! ## What a step leaves of other servers -/

/-- What happens to one server leaves what another one holds. -/
structure Frame (s t : Manager F) (serverId : Text) (client : Option Nat) : Prop where
  names : ∀ name, Registry.belongsTo (namespaceOf serverId) name = true →
    Registry.resolve t.registry name = Registry.resolve s.registry name
  handlers : s.handlers <+: t.handlers
  tasks : ∀ (task : Nat) (load : CatalogTask F), s.tasks[task]? = some load →
    ∃ next, t.tasks[task]? = some next ∧ next.generation = load.generation
  history : t.history = s.history ∨ ∃ event, t.history = s.history ++ [event] ∧
    event.serverId? ≠ some serverId ∧ ∀ c, client = some c → event.client? ≠ some c

variable {serverId : Text}

private theorem Publishes.frame {registry next : ToolRegistry F} {handlers more : List Handler}
    {catalog : Option (McpCatalog F)}
    (h : Publishes registry handlers serverId catalog)
    (hnames : ∀ name, Registry.belongsTo (namespaceOf serverId) name = true →
      Registry.resolve next name = Registry.resolve registry name) (hmore : handlers <+: more) :
    Publishes next more serverId catalog := by
  obtain ⟨first, hhandlers, htools⟩ := h
  refine ⟨first, fun c hc => (hhandlers c hc).trans ?_, fun name hname => ?_⟩
  · exact hmore.drop first
  · rw [hnames name hname]
    exact htools name hname

private theorem IsOpen.note {client pending more : Nat} (h : IsOpen s client pending)
    {event : Event}
    (hhistory : t.history = s.history ++ [event]) (hclosing : event ≠ .closing client)
    (hanswered : Answered (s.history ++ [event]) client more) : IsOpen t client more := by
  refine ⟨hhistory ▸ List.mem_append_left _ h.created, fun hmem => ?_, hhistory ▸ hanswered⟩
  rw [hhistory] at hmem
  rcases List.mem_append.mp hmem with hmem | hmem
  · exact h.unclosed hmem
  · exact hclosing (List.mem_singleton.mp hmem).symm

private theorem IsOpen.frame {client pending : Nat} (h : IsOpen s client pending)
    (hhistory : t.history = s.history ∨ ∃ event, t.history = s.history ++ [event] ∧
      event.client? ≠ some client) : IsOpen t client pending := by
  rcases hhistory with heq | ⟨event, heq, hclient⟩
  · exact ⟨heq ▸ h.created, heq ▸ h.unclosed, heq ▸ h.answered⟩
  · refine h.note heq (fun hclosing => hclient (hclosing ▸ rfl)) ?_
    exact (answered_concat (isCall_eq_false hclient) (isAnswer_eq_false hclient)).mpr h.answered

private theorem Served.frame {server : Server F} {client : Option Nat} (h : Served s server)
    (hframe : Frame s t server.config.id client) : Served t server := by
  refine ⟨h.paired, h.generation, h.tools.frame hframe.names hframe.handlers, ?_, ?_⟩
  · intro other generation names hmem
    rcases hframe.history with heq | ⟨event, heq, hserver, -⟩
    · exact h.bounded other generation names (heq ▸ hmem)
    · rw [heq] at hmem
      rcases List.mem_append.mp hmem with hmem | hmem
      · exact h.bounded other generation names hmem
      · exact absurd (List.mem_singleton.mp hmem ▸ rfl) hserver
  · intro other catalog hclient hcatalog
    have hmem := h.current other catalog hclient hcatalog
    rcases hframe.history with heq | ⟨event, heq, -, -⟩
    · exact heq ▸ hmem
    · exact heq ▸ List.mem_append_left _ hmem

/-- A server stays sound when others act. -/
theorem ServerSound.frame {server : Server F} (h : ServerSound s serverId server)
    (hframe : Frame s t serverId server.held) : ServerSound t serverId server := by
  obtain rfl := h.named
  refine ⟨rfl, h.served.frame hframe, fun client hheld => ?_,
    ⟨h.reports.connected, fun hstatus => ?_⟩, fun request phase hrunning => ?_⟩
  · refine (h.isOpen client hheld).frame ?_
    rcases hframe.history with heq | ⟨event, heq, -, hclient⟩
    · exact .inl heq
    · exact .inr ⟨event, heq, hclient client hheld⟩
  · refine (h.reports.stale hstatus).imp_right fun hstale => hstale.imp_left fun hdrop => ?_
    rcases hframe.history with heq | ⟨event, heq, hserver, -⟩
    · exact heq ▸ hdrop
    · rw [heq, dropInterrupted_concat hserver]
      exact hdrop
  · have hphase := h.phase request phase hrunning
    cases phase with
    | connecting client task generation =>
      obtain ⟨hclient, hgeneration, load, hload, heq⟩ := hphase
      obtain ⟨next, hnext, hsame⟩ := hframe.tasks task load hload
      exact ⟨hclient, hgeneration, next, hnext, hsame.trans heq⟩
    | _ => exact hphase

/-! ## Ownership -/

private theorem Ownership.update {clients : Nat} {history more : List Event}
    {owns next : Text → Nat → Prop} (h : Ownership clients history owns)
    (hback : ∀ serverId client, next serverId client → owns serverId client)
    (hmore : history ⊆ more)
    (hkept : ∀ serverId client, owns serverId client →
      next serverId client ∨ .closing client ∈ more) : Ownership clients more next where
  exclusive serverId other client hown hother :=
    h.exclusive serverId other client (hback _ _ hown) (hback _ _ hother)
  accounted client hclient := by
    rcases h.accounted client hclient with hclosed | ⟨serverId, hown⟩
    · exact .inl (hmore hclosed)
    · exact (hkept serverId client hown).symm.imp_right fun howns => ⟨serverId, howns⟩

/-- Ownership depends on what is owned. -/
theorem Ownership.congr {clients : Nat} {history : List Event} {owns next : Text → Nat → Prop}
    (h : Ownership clients history owns) (hsame : ∀ serverId client,
      next serverId client ↔ owns serverId client) : Ownership clients history next :=
  h.update (fun _ _ => (hsame _ _).mp) (List.Subset.refl _) fun _ _ hown =>
    .inl ((hsame _ _).mpr hown)

private theorem Locked.Owns.mono {l m : Locked F} {hand next : Option Nat}
    {client : Nat} (h : l.Owns hand serverId client)
    (hid : m.server.config.id = l.server.config.id)
    (hservers : m.manager.servers = l.manager.servers)
    (hself : l.server.client = some client ∨ hand = some client →
      m.server.client = some client ∨ next = some client) : m.Owns next serverId client := by
  unfold Locked.Owns Manager.Owns at h ⊢
  rw [hid, hservers]
  split
  · next heq =>
    rw [if_pos heq] at h
    exact hself h
  · next hne => rwa [if_neg hne] at h

section Registry

variable [JsonRuntime F] {l : Locked F} {hand : Option Nat} {pending : Nat}
variable {server : Server F} {client : Nat}

private theorem Holds.held_ne (h : Holds l hand pending) {serverId : Text}
    (hother : serverId ≠ l.server.config.id)
    (hserver : l.manager.servers.get? serverId = some server)
    (howns : l.server.client = some client ∨ hand = some client) :
    server.held ≠ some client := by
  intro hheld
  refine hother (h.ownership.exclusive serverId l.server.config.id client ?_ ?_)
  · exact (Locked.owns_other hother).mpr ⟨server, hserver, hheld⟩
  · exact Locked.owns_self.2 howns

/-- What holds while a request goes on does not depend on the status and the locks. -/
theorem Holds.congr (h : Holds l hand pending) {request : Request}
    (hconfig : server.config = l.server.config) (hclient : server.client = l.server.client)
    (hcatalog : server.catalog = l.server.catalog)
    (hgeneration : server.generation = l.server.generation) :
    Holds ⟨l.manager, server, request⟩ hand pending := by
  refine ⟨h.recorded, ⟨?_, ?_, ?_, ?_, ?_⟩, ?_, ?_, ?_, ?_⟩
  · rw [hclient, hcatalog]
    exact h.served.paired
  · rw [hcatalog, hgeneration]
    exact h.served.generation
  · rw [hconfig, hcatalog]
    exact h.served.tools
  · rw [hconfig, hgeneration]
    exact h.served.bounded
  · rw [hconfig, hclient, hcatalog]
    exact h.served.current
  · rw [hclient]
    exact h.isOpen
  · rw [hclient]
    exact h.apart
  · rw [hconfig]
    exact h.others
  · refine h.ownership.congr fun serverId client => ?_
    unfold Locked.Owns
    rw [hconfig, hclient]

/-- What holds of the manager holds while a request goes on. -/
theorem Sound.holds (h : Sound s) {serverId : Text}
    (hserver : s.servers.get? serverId = some server) (next : Server F) (request : Request)
    (hconfig : next.config = server.config)
    (hclient : next.client = server.client) (hcatalog : next.catalog = server.catalog)
    (hgeneration : next.generation = server.generation) :
    Holds ⟨s, next, request⟩ (server.running.bind fun job => job.2.hand) server.pending := by
  have hsound := h.servers serverId server hserver
  have happart : (server.running.bind fun job => job.2.hand).isSome = true →
      server.client = none := by
    intro hhand
    obtain ⟨client, hhand⟩ := Option.isSome_iff_exists.mp hhand
    obtain ⟨⟨job, phase⟩, hrunning, hphase⟩ := Option.bind_eq_some_iff.mp hhand
    have hsound' := hsound.phase job phase hrunning
    cases phase with
    | connecting client task generation => exact hsound'.1
    | _ => cases hphase
  have hheld : ∀ client, server.client = some client ∨
      (server.running.bind fun job => job.2.hand) = some client ↔ server.held = some client := by
    intro client
    unfold Server.held
    cases hhand : server.running.bind fun job => job.2.hand with
    | none => simp
    | some other =>
      rw [hhand] at happart
      simp [happart rfl]
  have hholds : Holds ⟨s, server, request⟩ (server.running.bind fun job => job.2.hand)
      server.pending := by
    refine ⟨h.recorded, hsound.served, fun client howns => ?_, happart,
      fun other server' _ hother => h.servers other server' hother,
      h.ownership.congr fun other client => ?_⟩
    · exact hsound.isOpen client ((hheld client).mp howns)
    · unfold Locked.Owns Manager.Owns
      split
      · next heq =>
        obtain rfl := heq.trans hsound.named
        rw [hheld]
        exact ⟨fun howns => ⟨server, hserver, howns⟩, fun ⟨same, hsame, howns⟩ => by
          rw [hserver] at hsame
          exact Option.some.inj hsame ▸ howns⟩
      · exact Iff.rfl
  exact hholds.congr hconfig hclient hcatalog hgeneration

/-- A server that is put back. -/
theorem Holds.put (h : Holds l hand pending) (running : Option (Request × Phase))
    (hhand : (running.bind fun job => job.2.hand) = hand)
    (hpending : l.server.client.isSome = true ∨ hand.isSome = true →
      (running.map fun job => job.2.pending).getD 0 = pending)
    (hreports : Reports l.manager (l.server.run running))
    (hphase : ∀ request phase, running = some (request, phase) →
      PhaseSound l.manager l.server phase) :
    Sound (l.manager.put (l.server.run running)) := by
  have hheld : ∀ client, (l.server.run running).held = some client ↔
      l.server.client = some client ∨ hand = some client := by
    intro client
    change (running.bind fun job => job.2.hand).or l.server.client = some client ↔ _
    rw [hhand]
    cases hcase : hand with
    | none => simp
    | some other =>
      rw [hcase] at h
      simp [h.apart rfl]
  refine ⟨⟨h.recorded.registry, h.recorded.fresh, h.recorded.loads, h.recorded.lawful⟩, ?_, ?_⟩
  · intro serverId server hserver
    change (l.manager.servers.set _ _).get? serverId = some server at hserver
    rw [Dict.get?_set] at hserver
    split at hserver
    · next heq =>
      obtain rfl := Option.some.inj hserver
      refine ⟨heq.symm, ?_, fun client howns => ?_, ⟨hreports.connected, hreports.stale⟩, ?_⟩
      · exact ⟨h.served.paired, h.served.generation, h.served.tools, h.served.bounded,
          h.served.current⟩
      · have hown := (hheld client).mp howns
        have hopen := h.isOpen client hown
        have hsame : (l.server.run running).pending = pending :=
          hpending (hown.imp Option.isSome_of_eq_some Option.isSome_of_eq_some)
        rw [hsame]
        exact ⟨hopen.created, hopen.unclosed, hopen.answered⟩
      · exact fun request phase hrunning => hphase request phase hrunning
    · next hne =>
      refine (h.others serverId server hne hserver).frame ?_
      exact ⟨fun _ _ => rfl, List.prefix_refl _, fun _ load hload => ⟨load, hload, rfl⟩, .inl rfl⟩
  · refine h.ownership.congr fun serverId client => ?_
    change (∃ server, (l.manager.servers.set l.server.config.id _).get? serverId = some server ∧
      _) ↔ _
    by_cases heq : serverId = l.server.config.id
    · subst heq
      rw [Dict.get?_set_self, Locked.owns_self, ← hheld]
      simp
    · rw [Dict.get?_set_of_ne _ _ heq, Locked.owns_other heq]
      exact Iff.rfl

/-! ## Events -/

omit [JsonRuntime F] in
private theorem Served.record (h : Served s server) (event : Event)
    (hevent : ∀ client generation names,
      event ≠ .published server.config.id client generation names) :
    Served (s.note event) server := by
  refine ⟨h.paired, h.generation, h.tools, fun client generation names hmem => ?_,
    fun client catalog hclient hcatalog => ?_⟩
  · rcases List.mem_append.mp hmem with hmem | hmem
    · exact h.bounded client generation names hmem
    · exact absurd (List.mem_singleton.mp hmem).symm (hevent client generation names)
  · exact List.mem_append_left _ (h.current client catalog hclient hcatalog)

private theorem Recorded.record (h : Recorded s) {event : Event} (hlaw : Law s.history event)
    (hfresh : ∀ client, event.client? = some client → client < s.clients) :
    Recorded (s.note event) := by
  refine ⟨h.registry, fun other hother client hclient => ?_, h.loads, h.lawful.concat hlaw⟩
  rcases List.mem_append.mp hother with hother | hother
  · exact h.fresh other hother client hclient
  · exact hfresh client (List.mem_singleton.mp hother ▸ hclient)

private theorem Holds.record (h : Holds l hand pending) {event : Event} {next : Option Nat}
    {more : Nat}
    (hlaw : Law l.manager.history event)
    (howned : ∀ client, event.client? = some client →
      l.server.client = some client ∨ hand = some client)
    (hserver : ∀ serverId, event.serverId? = some serverId → serverId = l.server.config.id)
    (hevent : ∀ client generation names,
      event ≠ .published l.server.config.id client generation names)
    (hnext : ∀ client, next = some client → hand = some client)
    (hkept : ∀ client, hand = some client → next = some client ∨ event = .closing client)
    (hopen : ∀ client, l.server.client = some client ∨ next = some client →
      event ≠ .closing client ∧ Answered (l.manager.history ++ [event]) client more) :
    Holds (l.record event) next more := by
  refine ⟨h.recorded.record hlaw fun client hclient => ?_, h.served.record event hevent,
    fun client howns => ?_, fun hnone => ?_, fun serverId server hother hget => ?_, ?_⟩
  · exact h.recorded.fresh _ (h.isOpen client (howned client hclient)).created client rfl
  · obtain ⟨hclosing, hanswered⟩ := hopen client howns
    exact (h.isOpen client (howns.imp_right (hnext client))).note rfl hclosing hanswered
  · obtain ⟨client, hclient⟩ := Option.isSome_iff_exists.mp hnone
    exact h.apart (Option.isSome_of_eq_some (hnext client hclient))
  · refine (h.others serverId server hother hget).frame ⟨fun _ _ => rfl, List.prefix_refl _,
      fun _ load hload => ⟨load, hload, rfl⟩, .inr ⟨event, rfl, fun heq => ?_,
        fun client hheld heq => ?_⟩⟩
    · exact hother (hserver serverId heq)
    · exact h.held_ne hother hget (howned client heq) hheld
  · refine h.ownership.update (fun _ client howns => howns.mono rfl rfl ?_)
      (List.subset_append_left _ _) fun serverId client howns => ?_
    · exact Or.imp_right (hnext client)
    · rcases eq_or_ne hand (some client) with heq | hne
      · rcases hkept client heq with hsame | rfl
        · exact .inl (howns.mono rfl rfl (Or.imp_right fun _ => hsame))
        · exact .inr (List.mem_append_right _ List.mem_cons_self)
      · exact .inl (howns.mono rfl rfl (Or.imp_right fun heq => absurd heq hne))

/-- The client in the hand begins to close. -/
theorem Holds.close (h : Holds l (some client) pending) (more : Nat) :
    Holds (l.record (.closing client)) none more := by
  have hopen := h.isOpen client (.inr rfl)
  have hnone := h.apart rfl
  refine h.record ⟨hopen.created, hopen.unclosed⟩ (fun other hother => ?_) (fun _ hserver => ?_)
    (fun _ _ _ heq => ?_) (fun _ hnext => ?_) (fun other hother => ?_) (fun other howns => ?_)
  · exact .inr hother
  · cases hserver
  · cases heq
  · cases hnext
  · exact .inr (Option.some.inj hother ▸ rfl)
  · rw [hnone] at howns
    rcases howns with howns | howns <;> cases howns

/-- The drop of the server is interrupted. -/
theorem Holds.interrupt (h : Holds l none pending) :
    Holds (l.record (.interrupted l.server.config.id)) none pending := by
  refine h.record trivial (fun _ hclient => ?_) (fun _ hserver => ?_) (fun _ _ _ heq => ?_)
    (fun _ hnext => hnext) (fun _ hhand => .inl hhand) (fun client howns => ⟨fun heq => ?_, ?_⟩)
  · cases hclient
  · exact (Option.some.inj hserver).symm
  · cases heq
  · cases heq
  · exact (answered_concat rfl rfl).mpr (h.isOpen client howns).answered

/-- The client of the server is called. -/
theorem Holds.call (h : Holds l none 0) {client : Nat} {catalog : McpCatalog F}
    {toolName : Text} (hclient : l.server.client = some client)
    (hcatalog : l.server.catalog = some catalog)
    (hresolve : (catalog.resolve toolName).isSome = true) :
    Holds (l.record (.called ⟨l.server.config.id, toolName, catalog.generation⟩ client)) none
      1 := by
  have hopen := h.isOpen client (.inl hclient)
  have hpublished := h.served.current client catalog hclient hcatalog
  have hname : toolName ∈ catalog.tools.map McpTool.name := by
    obtain ⟨tool, htool⟩ := Option.isSome_iff_exists.mp hresolve
    exact List.mem_map.mpr
      ⟨tool, List.mem_of_find?_eq_some htool, of_decide_eq_true (List.find?_some htool :)⟩
  refine h.record ⟨hopen.unclosed, hopen.answered, _, hpublished, hname⟩ (fun other hother => ?_)
    (fun _ hnone => ?_) (fun _ _ _ heq => ?_) (fun _ hnext => hnext) (fun _ hhand => .inl hhand)
    (fun other howns => ⟨fun heq => ?_, ?_⟩)
  · exact .inl (hclient.trans hother)
  · cases hnone
  · cases heq
  · cases heq
  · rcases howns with howns | howns
    · rw [hclient] at howns
      exact Option.some.inj howns ▸ answered_called _ hopen.answered
    · cases howns

/-- The client of the server has answered. -/
theorem Holds.answer (h : Holds l none 1) (hclient : l.server.client = some client) :
    Holds (l.record (.answered client)) none 0 := by
  have hopen := h.isOpen client (.inl hclient)
  refine h.record hopen.answered (fun other hother => ?_) (fun _ hnone => ?_)
    (fun _ _ _ heq => ?_) (fun _ hnext => hnext) (fun _ hhand => .inl hhand)
    (fun other howns => ⟨fun heq => ?_, ?_⟩)
  · exact .inl (hclient.trans hother)
  · cases hnone
  · cases heq
  · cases heq
  · rcases howns with howns | howns
    · rw [hclient] at howns
      exact Option.some.inj howns ▸ answered_answered hopen.answered
    · cases howns

/-! ## Catalogs -/

omit [JsonRuntime F] in
private theorem not_belongsTo_of_ne {config other : McpServerConfig} (h : config.id ≠ other.id)
    {name : Text} (hname : Registry.belongsTo (namespaceOf config.id) name = true) :
    Registry.belongsTo (namespaceOf other.id) name = false := by
  rw [Bool.eq_false_iff]
  exact fun hother => h (serverId_unique config.valid other.valid hname hother)

/-- The client of the server is in the hand of the request, and its catalog is gone. -/
theorem Holds.take (h : Holds l hand pending) :
    Holds l.withoutClient.invalidateCatalog (l.server.client.or hand) pending := by
  have howns : ∀ client, l.server.client.or hand = some client ↔
      l.server.client = some client ∨ hand = some client := by
    intro client
    cases hclient : l.server.client with
    | none => simp
    | some other =>
      have hnone : hand = none := by
        cases hhand : hand with
        | none => rfl
        | some _ =>
          have hnone := h.apart (hhand ▸ rfl)
          rw [hclient] at hnone
          cases hnone
      simp [hnone]
  have hresolve : ∀ name, Registry.resolve ((RegistryOperation.removeNamespace
      (namespaceOf l.server.config.id)).after l.manager.registry) name =
        if Registry.belongsTo (namespaceOf l.server.config.id) name = true then none
        else Registry.resolve l.manager.registry name := by
    intro name
    change (l.manager.registry.items.filterKeys _).get? name = _
    rw [Dict.get?_filterKeys]
    cases Registry.belongsTo (namespaceOf l.server.config.id) name <;> rfl
  refine ⟨⟨?_, h.recorded.fresh, h.recorded.loads, h.recorded.lawful⟩, ⟨rfl, ?_, ?_, ?_, ?_⟩,
    fun client hclient => ?_, fun _ => rfl, fun serverId server hother hget => ?_,
    h.ownership.congr fun serverId client => ⟨fun hown => hown.mono rfl rfl fun hself => ?_,
      fun hown => hown.mono rfl rfl fun hself => .inr ((howns client).mpr hself)⟩⟩
  · exact Registry.sound_after _ h.recorded.registry
  · exact fun _ hcatalog => by cases hcatalog
  · refine ⟨0, fun _ hcatalog => ?_, fun name hname => ?_⟩
    · cases hcatalog
    · exact (hresolve name).trans (if_pos hname)
  · exact fun client generation names hmem =>
      Nat.le_succ_of_le (h.served.bounded client generation names hmem)
  · exact fun _ _ hclient => by cases hclient
  · rcases hclient with hclient | hclient
    · cases hclient
    · obtain ⟨hcreated, hunclosed, hanswered⟩ := h.isOpen client ((howns client).mp hclient)
      exact ⟨hcreated, hunclosed, hanswered⟩
  · have hsound := h.others serverId server hother hget
    obtain rfl := hsound.named
    refine hsound.frame ⟨fun name hname => ?_, List.prefix_refl _,
      fun _ load hload => ⟨load, hload, rfl⟩, .inl rfl⟩
    have hfalse : Registry.belongsTo (namespaceOf l.server.config.id) name = false :=
      not_belongsTo_of_ne hother hname
    exact (hresolve name).trans (if_neg (by rw [hfalse]; exact Bool.false_ne_true))
  · exact (howns client).mp (hself.resolve_left fun hnone => by cases hnone)

/-- The client of the server begins to close. -/
theorem Holds.popClient (h : Holds l none pending) (more : Nat) : Holds l.popClient none more := by
  have htake := h.take
  unfold Locked.popClient
  rw [Option.or_none] at htake
  cases hclient : l.server.client with
  | none =>
    rw [hclient] at htake
    refine ⟨htake.recorded, htake.served, fun client howns => ?_, htake.apart, htake.others,
      htake.ownership⟩
    rcases howns with howns | howns <;> cases howns
  | some client =>
    rw [hclient] at htake
    exact htake.close more

/-- A client is created that is in the hand of the request. -/
theorem Holds.create (h : Holds l none pending) (hclient : l.server.client = none)
    (generation : Nat) :
    Holds ⟨l.manager.create l.server.config.id generation, l.server, l.request⟩
      (some l.manager.clients) 0 := by
  have hfresh : ∀ event ∈ l.manager.history, event.client? ≠ some l.manager.clients :=
    fun event hevent heq => absurd (h.recorded.fresh event hevent _ heq) (Nat.lt_irrefl _)
  have hserved := h.served.record (.created l.manager.clients) fun _ _ _ heq => by
    cases heq
  have hheld : ∀ serverId, l.manager.Owns serverId l.manager.clients →
      serverId = l.server.config.id := by
    rintro serverId ⟨server, hget, hheld⟩
    by_contra hother
    have hopen := (h.others serverId server hother hget).isOpen _ hheld
    exact hfresh _ hopen.created rfl
  refine ⟨⟨h.recorded.registry, fun event hevent client heq => ?_, fun load hload => ?_,
      h.recorded.lawful.concat hfresh⟩, ⟨hserved.paired, hserved.generation, hserved.tools,
      hserved.bounded, hserved.current⟩, fun client howns => ?_, fun _ => hclient,
    fun serverId server hother hget => ?_, ?_⟩
  · rcases List.mem_append.mp hevent with hevent | hevent
    · exact Nat.lt_succ_of_lt (h.recorded.fresh event hevent client heq)
    · obtain rfl := List.mem_singleton.mp hevent
      exact Option.some.inj heq ▸ Nat.lt_succ_self _
  · rcases List.mem_append.mp hload with hload | hload
    · exact h.recorded.loads load hload
    · obtain rfl := List.mem_singleton.mp hload
      exact fun catalog heq => by cases heq
  · rcases howns with howns | howns
    · exact absurd (hclient.symm.trans howns) (by simp)
    · obtain rfl := Option.some.inj howns
      refine ⟨List.mem_append_right _ List.mem_cons_self, fun hmem => ?_, ?_⟩
      · rcases List.mem_append.mp hmem with hmem | hmem
        · exact hfresh _ hmem rfl
        · cases List.mem_singleton.mp hmem
      · exact (answered_concat rfl rfl).mpr (answered_of_fresh hfresh)
  · refine (h.others serverId server hother hget).frame ⟨fun _ _ => rfl, List.prefix_refl _,
      fun task load hload => ⟨load, ?_, rfl⟩,
      .inr ⟨_, rfl, fun heq => ?_, fun client hown heq => ?_⟩⟩
    · exact List.getElem?_append_left (List.getElem?_eq_some_iff.mp hload).1 ▸ hload
    · cases heq
    · exact hother (hheld serverId ⟨server, hget, hown.trans heq.symm⟩)
  · refine ⟨fun serverId other client hown hown' => ?_, fun client hlt => ?_⟩
    · by_cases hnew : client = l.manager.clients
      · subst hnew
        have hself : ∀ i, Locked.Owns ⟨l.manager.create l.server.config.id generation, l.server,
            l.request⟩ (some l.manager.clients) i l.manager.clients → i = l.server.config.id := by
          intro i howns
          by_contra hother
          exact hother (hheld i ((Locked.owns_other hother).mp howns))
        exact (hself _ hown).trans (hself _ hown').symm
      · have hold : some l.manager.clients = some client → none = some client := fun heq =>
          absurd (Option.some.inj heq).symm hnew
        exact h.ownership.exclusive serverId other client
          (hown.mono rfl rfl (Or.imp_right hold)) (hown'.mono rfl rfl (Or.imp_right hold))
    · rcases Nat.lt_succ_iff_lt_or_eq.mp hlt with hlt | rfl
      · rcases h.ownership.accounted client hlt with hclosed | ⟨serverId, howns⟩
        · exact .inl (List.mem_append_left _ hclosed)
        · exact .inr ⟨serverId, howns.mono rfl rfl (Or.imp_right fun hnone => by cases hnone)⟩
      · exact .inr ⟨_, Locked.owns_self.2 (.inr rfl)⟩

/-- The catalog of the client in the hand is published. -/
theorem Holds.publish (h : Holds l (some client) 0) {catalog : McpCatalog F}
    {registry : ToolRegistry F} (hgeneration : catalog.generation = l.server.generation + 1)
    (hupdates : Registry.Updates (.replaceNamespace (namespaceOf l.server.config.id)
      (numberedTools l.server.config.id catalog l.manager.handlers.length)) l.manager.registry
        registry) :
    Holds ⟨(l.manager.publish registry (Locked.handlersOf l.server.config.id catalog)).note
        (.published l.server.config.id client catalog.generation (catalog.tools.map McpTool.name)),
      l.server.connected client catalog.generation catalog, l.request⟩ none 0 := by
  have hopen := h.isOpen client (.inr rfl)
  have hnone := h.apart rfl
  refine ⟨⟨hupdates.1, fun event hevent other heq => ?_, h.recorded.loads,
      h.recorded.lawful.concat ⟨hopen.created, hopen.unclosed, fun _ _ _ hmem => ?_⟩⟩,
    ⟨rfl, fun _ heq => ?_, ⟨l.manager.handlers.length, fun c heq => ?_, fun name hname => ?_⟩,
      fun other generation names hmem => ?_, fun other c hother hc => ?_⟩,
    fun other howns => ?_, fun hnone => ?_, fun serverId server hother hget => ?_, ?_⟩
  · rcases List.mem_append.mp hevent with hevent | hevent
    · exact h.recorded.fresh event hevent other heq
    · obtain rfl := List.mem_singleton.mp hevent
      exact Option.some.inj heq ▸ h.recorded.fresh _ hopen.created client rfl
  · exact hgeneration ▸ Nat.lt_succ_of_le (h.served.bounded _ _ _ hmem)
  · exact Option.some.inj heq ▸ rfl
  · obtain rfl := Option.some.inj heq
    change _ <+: (l.manager.handlers ++ _).drop l.manager.handlers.length
    rw [List.drop_left]
    exact List.prefix_refl _
  · exact (hupdates.2 name).trans (if_pos hname)
  · rcases List.mem_append.mp hmem with hmem | hmem
    · exact hgeneration ▸ Nat.le_succ_of_le (h.served.bounded other generation names hmem)
    · cases List.mem_singleton.mp hmem
      exact Nat.le_refl _
  · obtain rfl := Option.some.inj hother
    obtain rfl := Option.some.inj hc
    exact List.mem_append_right _ List.mem_cons_self
  · rcases howns with howns | howns
    · obtain rfl := Option.some.inj howns
      exact hopen.note rfl (fun heq => by cases heq) ((answered_concat rfl rfl).mpr hopen.answered)
    · cases howns
  · cases hnone
  · have hsound := h.others serverId server hother hget
    obtain rfl := hsound.named
    refine hsound.frame ⟨fun name hname => ?_, List.prefix_append _ _,
      fun _ load hload => ⟨load, hload, rfl⟩,
      .inr ⟨_, rfl, fun heq => ?_, fun other hheld heq => ?_⟩⟩
    · have hfalse : Registry.belongsTo (namespaceOf l.server.config.id) name = false :=
        not_belongsTo_of_ne hother hname
      refine (hupdates.2 name).trans (if_neg ?_)
      exact fun htrue => Bool.false_ne_true (hfalse.symm.trans htrue)
    · exact hother (Option.some.inj heq).symm
    · exact h.held_ne hother hget (.inr heq) hheld
  · refine h.ownership.update (fun _ other howns => howns.mono rfl rfl fun hself => ?_)
      (List.subset_append_left _ _) fun _ other howns => .inl (howns.mono rfl rfl fun hself => ?_)
    · exact .inr (hself.resolve_right fun hnone => by cases hnone)
    · refine .inl (hself.resolve_left fun hclient => ?_)
      rw [hnone] at hclient
      cases hclient

omit [JsonRuntime F] in
/-- A server without a client is not reported as connected. -/
theorem reports_of_status (hclient : server.client = none)
    (hstatus : ∀ detail, server.status ≠ some ⟨.connected, detail⟩) : Reports s server where
  connected hsome := by
    rw [hclient] at hsome
    cases hsome
  stale := fun ⟨detail, hconnected⟩ => absurd hconnected (hstatus detail)

omit [JsonRuntime F] in
/-- A server without a client is reported by its configuration. -/
theorem inactiveStatus_ne (s : Manager F) (config : McpServerConfig) :
    (s.inactiveStatus config).state ≠ .connected := by
  unfold Manager.inactiveStatus
  repeat' split
  all_goals exact fun heq => by cases heq

end Registry

end AwesomeAgent.McpManager
