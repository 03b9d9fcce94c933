import AwesomeAgent.Library.Dict
import AwesomeAgent.Library.FaultySteps
import AwesomeAgent.Providers.Secrets

/-!
# State of the provider configuration

The secret file, the user configuration, the journals of credential and model
transactions with the credential backup, and the models of the Threads in the
application database. Each file is replaced in one step. The journals and the
backup are private regular files of one directory, and the JSON text of a record
fits its size limit and reads back as the record.
-/

namespace AwesomeAgent

/-- Services with a credential. -/
inductive CredentialService
  | deepseek
  | kimi
  | mem0
  | tavily
  deriving DecidableEq, Repr

/-- Where a credential is taken from. -/
inductive CredentialSource
  | environment
  | awesome
  deriving DecidableEq, Repr

/-- Environment variable of the credential of a service. -/
def providerEnvironmentVariable : CredentialService → String
  | .deepseek => "DEEPSEEK_API_KEY"
  | .kimi => "MOONSHOT_API_KEY"
  | .mem0 => "MEM0_API_KEY"
  | .tavily => "TAVILY_API_KEY"

/-- Names that the secret file may assign. -/
def awesomeSecretNames : List String :=
  ["DEEPSEEK_API_KEY", "MOONSHOT_API_KEY", "MEM0_API_KEY", "TAVILY_API_KEY",
    "AWESOME_WEB_PROXY_URL"]

/-- Model profiles of the curated catalog. -/
def curatedModels : List String :=
  ["deepseek/deepseek-v4-flash", "deepseek/deepseek-v4-pro", "kimi/kimi-k2.6", "kimi/kimi-k2.5"]

/-- Selected credential sources. -/
structure CredentialSelectionConfig where
  deepseek : Option CredentialSource
  kimi : Option CredentialSource
  mem0 : Option CredentialSource
  tavily : CredentialSource
  deriving DecidableEq, Repr

/-- The selected source of a service. -/
def CredentialSelectionConfig.source (c : CredentialSelectionConfig) :
    CredentialService → Option CredentialSource
  | .deepseek => c.deepseek
  | .kimi => c.kimi
  | .mem0 => c.mem0
  | .tavily => some c.tavily

/-- Select a source; the source of Tavily cannot be unset. -/
def CredentialSelectionConfig.select (c : CredentialSelectionConfig) :
    CredentialService → Option CredentialSource → Option CredentialSelectionConfig
  | .deepseek, s => some { c with deepseek := s }
  | .kimi, s => some { c with kimi := s }
  | .mem0, s => some { c with mem0 := s }
  | .tavily, some s => some { c with tavily := s }
  | .tavily, none => none

/-- Selecting the source that is there changes nothing. -/
theorem CredentialSelectionConfig.select_source (c : CredentialSelectionConfig)
    (service : CredentialService) : c.select service (c.source service) = some c := by
  cases service <;> rfl

variable {service : CredentialService}

/-- A selection replaces the one before. -/
theorem CredentialSelectionConfig.select_select {c d e : CredentialSelectionConfig}
    {s t : Option CredentialSource} (hd : c.select service s = some d)
    (he : c.select service t = some e) : d.select service t = some e := by
  cases service
  case tavily =>
    cases s <;> cases t <;> cases hd
    all_goals exact he
  all_goals
    cases hd
    exact he

/-- A selected source is the source. -/
theorem CredentialSelectionConfig.source_select {c d : CredentialSelectionConfig}
    {s : Option CredentialSource} (hd : c.select service s = some d) :
    d.source service = s := by
  cases service
  case tavily =>
    cases s <;> cases hd
    rfl
  all_goals
    cases hd
    rfl

/-- The parts of the user configuration that provider transactions change. -/
structure UserConfigDocument where
  defaultModel : Option String
  credentials : CredentialSelectionConfig
  deriving DecidableEq, Repr

/-- A file with its content, or its absence. -/
structure SecretFileSnapshot where
  existed : Bool
  content : Bytes
  deriving DecidableEq, Repr

/-- The snapshot of a file. -/
def SecretFileSnapshot.of (file : Option Bytes) : SecretFileSnapshot :=
  ⟨file.isSome, file.getD []⟩

/-- The file that a snapshot stands for. -/
def SecretFileSnapshot.file (s : SecretFileSnapshot) : Option Bytes :=
  if s.existed then some s.content else none

/-- A snapshot holds the file that it is of. -/
@[simp] theorem SecretFileSnapshot.file_of (file : Option Bytes) :
    (SecretFileSnapshot.of file).file = file := by
  cases file <;> rfl

/-- Phases of a credential transaction. -/
inductive ProviderCredentialTransactionPhase
  | prepared
  | secretCommitted
  | committed
  deriving DecidableEq, Repr

/-- What a credential request does. -/
inductive CredentialAction
  | add
  | replace
  | delete
  deriving DecidableEq, Repr

/-- The journal record of a credential transaction. -/
structure ProviderCredentialTransactionRecord where
  phase : ProviderCredentialTransactionPhase
  service : CredentialService
  environmentVariable : String
  action : CredentialAction
  previousSource : Option CredentialSource
  targetSource : Option CredentialSource
  previousEnvExisted : Bool
  previousEnvSha256 : String
  targetEnvExisted : Bool
  targetEnvSha256 : String
  deriving DecidableEq, Repr

/-- Phases of a model transaction. -/
inductive ProviderModelTransactionPhase
  | prepared
  | committed
  deriving DecidableEq, Repr

/-- The journal record of a model transaction. -/
structure ProviderModelTransactionRecord where
  transactionId : Nat
  phase : ProviderModelTransactionPhase
  threadId : String
  previousDefaultModel : Option String
  targetDefaultModel : String
  previousThreadModel : Option String
  targetThreadModel : String
  deriving DecidableEq, Repr

/-- The models that a record names. -/
def ProviderModelTransactionRecord.models (r : ProviderModelTransactionRecord) : List String :=
  r.previousDefaultModel.toList ++ [r.targetDefaultModel] ++ r.previousThreadModel.toList ++
    [r.targetThreadModel]

/-- What the record validators accept. -/
def ProviderModelTransactionRecord.Contract (r : ProviderModelTransactionRecord) : Prop :=
  (∀ m ∈ r.models, m ∈ curatedModels) ∧ r.targetDefaultModel = r.targetThreadModel

instance (r : ProviderModelTransactionRecord) : Decidable r.Contract := by
  unfold ProviderModelTransactionRecord.Contract
  infer_instance

/-- Models of the Threads of the application database. -/
abbrev ThreadModels := Dict String (Option String)

/-- Failures of the provider configuration, with the message they carry. -/
inductive ProviderFault
  | userSecretStoreError (message : String)
  | credentialTransactionError (message : String)
  | modelTransactionJournalError (message : String)
  | runtimeError (message : String)
  | valueError (message : String)
  | unicodeDecodeError
  | assertionError
  | osError
  | threadNotFound (threadId : String)
  | sqliteError
  | sqliteUnavailable
  | modelTransactionRolledBack (primary : ProviderFault)
      (record : ProviderModelTransactionRecord)
  | recoveryRequired (primary : ProviderFault) (stages : List String)

/-- The configuration that a committed change publishes. -/
structure ProviderConfigurationSnapshot where
  user : UserConfigDocument
  secretFile : Option Bytes
  deriving DecidableEq, Repr

/-- A persisted model change: what it publishes, the model and its record. -/
structure PersistedModelConfiguration where
  snapshot : ProviderConfigurationSnapshot
  model : String
  record : ProviderModelTransactionRecord
  deriving DecidableEq, Repr

/-- How far the persistence of a model change came. -/
structure ModelAttempts where
  prepared : Option ProviderModelTransactionRecord
  committed : Option PersistedModelConfiguration
  rolledBack : Option ProviderFault

/-- The files and the database of the provider configuration. The last five fields live in
memory: the Threads as an open database transaction sees them, the failure that fences the
service, whether the database worker stopped, the attempts of the model change under way, and
the supply of identifiers. -/
structure ProviderState where
  secretFile : Option Bytes
  config : UserConfigDocument
  credentialJournal : Option ProviderCredentialTransactionRecord
  credentialBackup : Option Bytes
  modelJournal : Option ProviderModelTransactionRecord
  threads : ThreadModels
  transaction : Option ThreadModels
  recoveryRequired : Option (ProviderFault × List String)
  databaseUnavailable : Bool
  attempts : ModelAttempts
  supply : Nat

/-- What a new process finds. -/
def ProviderState.reboot (s : ProviderState) : ProviderState :=
  { s with transaction := none, recoveryRequired := none, databaseUnavailable := false }

/-- Whether a failure says that the service has to be restarted. -/
def ProviderFault.isRecoveryRequired : ProviderFault → Bool
  | .recoveryRequired _ _ => true
  | _ => false

/-- A procedure of the provider configuration. -/
abbrev ProviderProc (α : Type) := Proc ProviderFault (Scripted ProviderState) α

/-- Look at a file. -/
def readFile {α : Type} (f : ProviderState → Except ProviderFault α) : ProviderProc α :=
  Scripted.read .osError f

/-- Look at memory. -/
def readMemory {α : Type} (f : ProviderState → α) : ProviderProc α := Scripted.peek f

/-- Replace or unlink a file. -/
def writeFile (f : ProviderState → ProviderState) : ProviderProc Unit :=
  Scripted.write .osError f

/-- Require a restart before the next change; the first failure is kept. -/
def fence (primary : ProviderFault) (stages : List String) : ProviderProc Unit :=
  Scripted.remember fun s =>
    { s with recoveryRequired := s.recoveryRequired.or (some (primary, stages)) }

/-- Fence the service and report that it has to be restarted. -/
def fenceAndRaise {α : Type} (primary : ProviderFault) (stages : List String) :
    ProviderProc α := do
  fence primary stages
  throw (.recoveryRequired primary stages)

namespace UserConfigWriter

/-- Read the user configuration. -/
def read : ProviderProc UserConfigDocument := readFile fun s => .ok s.config

/-- Write the user configuration. -/
def write (document : UserConfigDocument) : ProviderProc Unit :=
  writeFile fun s => { s with config := document }

/-- Replace the user configuration by a transform of it. -/
def update (transform : UserConfigDocument → Option UserConfigDocument) :
    ProviderProc UserConfigDocument := do
  let current ← read
  match transform current with
  | none => throw (.valueError "tavily")
  | some updated =>
      write updated
      return updated

end UserConfigWriter

end AwesomeAgent
