import AwesomeAgent.Protocol.JobLedger

/-!
# Steps of the server

Every step keeps the account of the requests.
-/

namespace AwesomeAgent.Server

variable {Payload : Type} {wire : Wire Payload} {s t : Server Payload} {job moved : Job Payload}

/-- The job of the loop. -/
def mainJobs (s : Server Payload) : List (Job Payload) :=
  match s.main with
  | .replying job => [job]
  | .draining job => [job]
  | .urgent job => [job]
  | _ => []

/-- The jobs of the loop and of the background. -/
def jobs (s : Server Payload) : List (Job Payload) := s.mainJobs ++ s.tasks

/-- The loop has not been left. -/
def isServing (s : Server Payload) : Bool :=
  match s.main with
  | .ending => false
  | .ended => false
  | _ => true

/-- A server whose application may have been shut down. -/
def invoke (s : Server Payload) (invoked : Bool) : Server Payload :=
  { s with shutdownInvoked := invoked }

/-- A server with other background requests. -/
def withTasks (s : Server Payload) (tasks : List (Job Payload)) : Server Payload :=
  { s with tasks := tasks }

/-- What a step does. -/
inductive Stepped (wire : Wire Payload) (s : Server Payload) :
    ServerAction Payload → Server Payload → Prop
  | unreadable {rejection : Option BootstrapRejection} : s.main = .reading →
      Stepped wire s (.receive .unreadable rejection)
        (s.reply wire none .null none (jsonrpcError none parseError none))
  | blank {rejection : Option BootstrapRejection} : Stepped wire s (.receive .blank rejection) s
  | value {value : Json} {rejection : Option BootstrapRejection} : s.main = .reading →
      Stepped wire s (.receive (.value value) rejection) (s.receiveValue wire value rejection)
  | endOfInput : s.main = .reading → Stepped wire s .endOfInput s.leave
  | notice : s.main = .reading → Stepped wire s .notice s.leave
  | loop {event : JobEvent Payload} {job moved : Job Payload} {output : Option (Response Payload)}
      {invoked : Bool} : s.main = .replying job ∨ s.main = .urgent job →
        job.Moved wire moved output →
          Stepped wire s (.loop event) (((s.invoke invoked).note moved output).proceed wire moved)
  | task {i : Nat} {event : JobEvent Payload} {job moved : Job Payload}
      {output : Option (Response Payload)} {invoked : Bool} {before after : List (Job Payload)} :
      s.tasks = before ++ job :: after →
        job.Moved wire moved output → Stepped wire s (.task i event)
          (((s.invoke invoked).note moved output).withTasks (before ++ moved :: after))
  | discard {i : Nat} {job : Job Payload} {outcome : JobEnd Payload} {failed : Bool}
      {before after : List (Job Payload)} : s.tasks = before ++ job :: after →
        job.phase = .finished outcome → (outcome = .failed → failed = true) →
          Stepped wire s (.discard i)
            { s with tasks := before ++ after, requestFailed := s.requestFailed || failed }
  | drained {job : Job Payload} : s.main = .draining job →
      Stepped wire s .drained { s with main := .urgent job }
  | closed : s.main = .ending →
      Stepped wire s .closed { s with main := .ended, shutdownInvoked := true }

private theorem noteShutdown_eq (wire : Wire Payload) (s : Server Payload) (job : Job Payload)
    (event : JobEvent Payload) : ∃ invoked, s.noteShutdown wire job event = s.invoke invoked := by
  unfold noteShutdown
  split
  · exact ⟨_, rfl⟩
  · exact ⟨s.shutdownInvoked, rfl⟩

/-- Every step is one of a kind. -/
theorem step_stepped {a : ServerAction Payload} (ht : s.step wire a = some t) :
    Stepped wire s a t := by
  cases a with
  | receive frame rejection =>
    simp only [step] at ht
    split at ht <;> cases ht
    · next hmain => exact .unreadable hmain
    · exact .blank
    · next hmain => exact .value hmain
  | endOfInput =>
    simp only [step] at ht
    split at ht <;> cases ht
    next hmain => exact .endOfInput hmain
  | notice =>
    simp only [step] at ht
    split at ht
    · next hmain =>
      split at ht <;> cases ht
      exact .notice hmain
    · cases ht
  | loop event =>
    simp only [step] at ht
    split at ht
    · next job hcurrent =>
      obtain ⟨⟨moved, output⟩, hstep, rfl⟩ := Option.map_eq_some_iff.mp ht
      obtain ⟨invoked, hinvoke⟩ := noteShutdown_eq wire s job event
      rw [hinvoke]
      refine .loop ?_ (Job.step_moved hstep)
      unfold current at hcurrent
      split at hcurrent <;> cases hcurrent
      · next hmain => exact .inl hmain
      · next hmain => exact .inr hmain
    · cases ht
  | task i event =>
    simp only [step] at ht
    split at ht
    · next job hi =>
      obtain ⟨⟨moved, output⟩, hstep, rfl⟩ := Option.map_eq_some_iff.mp ht
      obtain ⟨invoked, hinvoke⟩ := noteShutdown_eq wire s job event
      obtain ⟨hlt, hget⟩ := List.getElem?_eq_some_iff.mp hi
      obtain ⟨before, after, hsplit, -, hset⟩ := @List.exists_of_set _ i moved s.tasks hlt
      rw [hget] at hsplit
      rw [hinvoke, hset]
      exact .task hsplit (Job.step_moved hstep)
    · cases ht
  | discard i =>
    simp only [step] at ht
    split at ht
    · next job hi =>
      split at ht
      · next outcome hphase =>
        cases ht
        obtain ⟨hlt, hget⟩ := List.getElem?_eq_some_iff.mp hi
        obtain ⟨before, after, hsplit, hlength, -⟩ := @List.exists_of_set _ i job s.tasks hlt
        rw [hget] at hsplit
        have herase : s.tasks.eraseIdx i = before ++ after := by
          rw [hsplit, ← hlength, List.eraseIdx_append_of_length_le (Nat.le_refl _), Nat.sub_self]
          rfl
        rw [herase]
        exact .discard hsplit hphase fun hfailed => by rw [hfailed]
      · cases ht
    · cases ht
  | drained =>
    simp only [step] at ht
    split at ht
    · next job hmain =>
      split at ht <;> cases ht
      exact .drained hmain
    · cases ht
  | closed =>
    simp only [step] at ht
    split at ht
    · next hmain =>
      split at ht <;> cases ht
      exact .closed hmain
    · cases ht

/-- The requests are accounted for. -/
abbrev Accounted (wire : Wire Payload) (s : Server Payload) : Prop := s.log.Balanced wire s.jobs

private theorem jobs_of_reading (hmain : s.main = .reading) : s.jobs = s.tasks := by
  simp only [jobs, mainJobs, hmain, List.nil_append]

variable {value : Json}

private theorem accounted_reply {serial : Option Nat} {completes : Option RequestId}
    {response : Response Payload}
    (hledger : s.log.Balanced wire
      (⟨.reply, serial, value, completes, .sending response, false⟩ :: s.tasks))
    (hlost : Ledger wire s.log.received s.log.output
      (s.log.lost ++ serial.toList.map fun n => (n, Loss.failed)) s.tasks) :
    (s.reply wire serial value completes response).Accounted wire := by
  unfold reply
  split
  · exact hledger
  · exact hlost.cancel

private theorem accounted_proceed (h : s.log.Balanced wire ([] ++ moved :: s.tasks)) :
    (s.proceed wire moved).Accounted wire := by
  unfold proceed
  split
  · next response hphase =>
    have hrest := h.discard (by simp only [Job.isFinished, hphase])
    split
    · exact hrest
    · split
      · exact hrest.cancel
      · exact hrest
  · next hphase => exact (h.discard (by simp only [Job.isFinished, hphase])).cancel
  · split <;> exact h

/-! ## Values that are received -/

private theorem isSilent_of_requestIdOf (h : requestIdOf wire value = none) :
    IsSilent wire value := by
  intro request hrequest
  obtain ⟨hid, hhas⟩ := id_of_parse hrequest
  rw [hhas, hid, h]
  rfl

private theorem answers_of_requestIdOf {id : RequestId} {error : JsonRpcError}
    {diagnosticCode : Option String} (h : requestIdOf wire value = some id) :
    Answers wire value (jsonrpcError (some id) error diagnosticCode : Response Payload) := by
  intro request hrequest
  obtain ⟨hid, hhas⟩ := id_of_parse hrequest
  rw [hhas, hid, h]
  exact ⟨rfl, rfl⟩

section Receive

variable {value : Json} (tracker : RequestIdTracker)

private theorem accounted_replyValue (h : s.log.Balanced wire s.tasks)
    (completes : Option RequestId)
    {id : RequestId} {error : JsonRpcError} {diagnosticCode : Option String}
    (hid : requestIdOf wire value = some id) :
    (((s.received value).tracking tracker).reply wire (some s.log.received.length) value completes
      (jsonrpcError (some id) error diagnosticCode)).Accounted wire := by
  refine accounted_reply ?_ ?_
  · exact h.openJob ⟨_, _, value, _, _, _⟩ rfl (.inr ⟨_, rfl, answers_of_requestIdOf hid⟩)
  · exact h.receive value [(s.log.received.length, Loss.failed)] (.inr List.mem_cons_self)

private theorem accounted_skip (h : s.log.Balanced wire s.tasks) (hmain : s.main = .reading)
    (hnone : requestIdOf wire value = none) :
    ((s.received value).tracking tracker).Accounted wire := by
  have hledger := h.receive value [] (.inl (isSilent_of_requestIdOf hnone))
  rw [List.append_nil] at hledger
  have hjobs : ((s.received value).tracking tracker).jobs = s.tasks := jobs_of_reading hmain
  rw [Accounted, hjobs]
  exact hledger

private theorem accounted_dispatchValue (h : s.log.Balanced wire s.tasks)
    (hmain : s.main = .reading) :
    (((s.received value).tracking tracker).dispatchValue wire s.log.received.length
      value).Accounted wire := by
  have hopen : Ledger wire (s.log.received ++ [value]) s.log.output s.log.lost
      (dispatchJob wire s.log.received.length value :: s.tasks) :=
    h.openJob (dispatchJob wire s.log.received.length value) rfl (.inl rfl)
  unfold dispatchValue
  split
  · split
    · exact h.cancel.openJob (dispatchJob wire _ value) rfl (.inl rfl)
    · exact hopen
  · split
    · split
      · next hsome =>
        obtain ⟨id, hid⟩ := Option.isSome_iff_exists.mp hsome
        rw [hid]
        exact accounted_replyValue tracker h _ hid
      · next hnone =>
        exact accounted_skip tracker h hmain (Option.not_isSome_iff_eq_none.mp hnone)
    · have hjobs : (((s.received value).tracking tracker).withTasks
          (s.tasks ++ [dispatchJob wire s.log.received.length value])).jobs =
            s.tasks ++ [dispatchJob wire s.log.received.length value] := jobs_of_reading hmain
      refine hopen.perm ?_
      exact List.Perm.trans (.of_eq hjobs) (List.perm_append_singleton _ _)

private theorem accept_repeated {tracker next : RequestIdTracker} {id : Option RequestId}
    {repeated : RequestId} (h : tracker.accept id = (some repeated, next)) :
    id = some repeated := by
  cases id with
  | none => cases h
  | some id =>
    simp only [RequestIdTracker.accept] at h
    split at h <;> cases h
    rfl

private theorem accounted_receiveValue (h : s.log.Balanced wire s.tasks) (hmain : s.main = .reading)
    (rejection : Option BootstrapRejection) :
    (s.receiveValue wire value rejection).Accounted wire := by
  unfold receiveValue
  dsimp only
  split
  · next repeated next haccept =>
    exact accounted_replyValue s.tracker h none (accept_repeated haccept)
  · split
    · next request rejection hrequest =>
      obtain ⟨hid, hhas⟩ := id_of_parse hrequest
      split
      · next hidentified =>
        obtain ⟨id, hsome⟩ := Option.isSome_iff_exists.mp (hhas ▸ hidentified)
        rw [hsome]
        exact accounted_replyValue _ h _ (hid ▸ hsome)
      · next hidentified =>
        rw [hhas, hid] at hidentified
        exact accounted_skip _ h hmain (Option.not_isSome_iff_eq_none.mp hidentified)
    · exact accounted_dispatchValue _ h hmain

end Receive

/-! ## Steps -/

/-- Every step keeps the account. -/
theorem Accounted.step (h : s.Accounted wire) {a : ServerAction Payload}
    (ht : Stepped wire s a t) : t.Accounted wire := by
  have hledger : s.log.Balanced wire s.jobs := h
  have hreading : s.main = .reading → s.log.Balanced wire s.tasks := fun hmain =>
    jobs_of_reading hmain ▸ hledger
  cases ht with
  | unreadable hmain =>
    refine accounted_reply ((hreading hmain).replyUnnumbered rfl rfl rfl) ?_
    rw [Option.toList_none, List.map_nil, List.append_nil]
    exact hreading hmain
  | blank => exact h
  | value hmain => exact accounted_receiveValue (hreading hmain) hmain _
  | endOfInput hmain => exact (hreading hmain).cancel
  | notice hmain => exact (hreading hmain).cancel
  | @loop event job moved output invoked hmain hmoved =>
    have hjobs : s.jobs = [] ++ job :: s.tasks := by
      rcases hmain with hmain | hmain <;> simp only [jobs, mainJobs, hmain] <;> rfl
    rw [hjobs] at hledger
    exact accounted_proceed (Ledger.move hledger hmoved)
  | @task i event job moved output invoked before after hsplit hmoved =>
    have hjobs : s.jobs = (s.mainJobs ++ before) ++ job :: after := by
      rw [jobs, hsplit, List.append_assoc]
    have hnext : s.mainJobs ++ (before ++ moved :: after) =
        (s.mainJobs ++ before) ++ moved :: after := (List.append_assoc _ _ _).symm
    change Ledger wire _ _ _ (s.mainJobs ++ (before ++ moved :: after))
    rw [hjobs] at hledger
    rw [hnext]
    exact Ledger.move hledger hmoved
  | @discard i job outcome failed before after hsplit hphase hfailed =>
    have hjobs : s.jobs = (s.mainJobs ++ before) ++ job :: after := by
      rw [jobs, hsplit, List.append_assoc]
    have hnext : s.mainJobs ++ (before ++ after) = (s.mainJobs ++ before) ++ after :=
      (List.append_assoc _ _ _).symm
    change Ledger wire _ _ _ (s.mainJobs ++ (before ++ after))
    rw [hjobs] at hledger
    rw [hnext]
    exact Ledger.discard hledger (by simp only [Job.isFinished, hphase])
  | @drained job hmain =>
    have hjobs : s.jobs = job :: s.tasks := by
      simp only [jobs, mainJobs, hmain, List.singleton_append]
    rw [hjobs] at hledger
    exact hledger
  | closed hmain =>
    have hjobs : s.jobs = s.tasks := by
      simp only [jobs, mainJobs, hmain, List.nil_append]
    rw [hjobs] at hledger
    exact hledger

end AwesomeAgent.Server
