import AwesomeAgent.Protocol.ServerSteps

/-!
# Why requests stay without an answer

A request is lost by a failure only if the failure ends the server, and it is interrupted only by a
shutdown or at the end of the server.
-/

namespace AwesomeAgent.Server

variable {Payload : Type} {wire : Wire Payload} {s t : Server Payload} {job moved : Job Payload}

/-- Why a request was left without an answer. -/
structure Explained (wire : Wire Payload) (s : Server Payload) : Prop where
  failed : ∀ n, (n, Loss.failed) ∈ s.log.lost → s.requestFailed = true ∨
    (∃ task ∈ s.tasks, task.phase = .finished .failed) ∨ s.isServing = false
  interrupted : ∀ n, (n, Loss.interrupted) ∈ s.log.lost → s.log.interrupted = true
  cancelling : ∀ job ∈ s.jobs, job.cancelling = true → s.log.interrupted = true
  cause : s.log.interrupted = true → s.isServing = false ∨
    ∃ value ∈ s.log.received, validShutdownRequest wire value = true

private theorem explained_initial : (initial : Server Payload).Explained wire where
  failed _ h := by cases h
  interrupted _ h := by cases h
  cancelling _ h := by cases h
  cause h := by cases h

private theorem explained_leave (s : Server Payload) : s.leave.Explained wire where
  failed _ _ := .inr (.inr rfl)
  interrupted _ _ := rfl
  cancelling _ _ _ := rfl
  cause _ := .inl rfl

private theorem Explained.congr (h : s.Explained wire)
    (hlog : t.log.lost = s.log.lost ∧ t.log.interrupted = s.log.interrupted ∧
      s.log.received ⊆ t.log.received)
    (hfailed : s.requestFailed = true ∨ (∃ task ∈ s.tasks, task.phase = .finished .failed) →
      t.requestFailed = true ∨ ∃ task ∈ t.tasks, task.phase = .finished .failed)
    (hserving : s.isServing = false → t.isServing = false)
    (hcancelling : ∀ job ∈ t.jobs, job.cancelling = true →
      ∃ same ∈ s.jobs, same.cancelling = true) : t.Explained wire where
  failed n hn := by
    rw [hlog.1] at hn
    rcases h.failed n hn with hfail | hfail | hleft
    · rcases hfailed (.inl hfail) with hfail | hfail
      · exact .inl hfail
      · exact .inr (.inl hfail)
    · rcases hfailed (.inr hfail) with hfail | hfail
      · exact .inl hfail
      · exact .inr (.inl hfail)
    · exact .inr (.inr (hserving hleft))
  interrupted n hn := by
    rw [hlog.1] at hn
    rw [hlog.2.1]
    exact h.interrupted n hn
  cancelling job hjob hcancel := by
    obtain ⟨same, hsame, hcancel⟩ := hcancelling job hjob hcancel
    rw [hlog.2.1]
    exact h.cancelling same hsame hcancel
  cause hinterrupted := by
    rw [hlog.2.1] at hinterrupted
    rcases h.cause hinterrupted with hleft | ⟨value, hvalue, hshutdown⟩
    · exact .inl (hserving hleft)
    · exact .inr ⟨value, hlog.2.2 hvalue, hshutdown⟩

private theorem mem_jobs_of_task {task : Job Payload} (h : task ∈ s.tasks) : task ∈ s.jobs :=
  List.mem_append_right _ h

private theorem Explained.received (h : s.Explained wire) (value : Json) :
    (s.received value).Explained wire :=
  h.congr ⟨rfl, rfl, List.subset_append_left _ _⟩ id id fun job hjob hcancel =>
    ⟨job, hjob, hcancel⟩

private theorem Explained.tracking (h : s.Explained wire) (tracker : RequestIdTracker) :
    (s.tracking tracker).Explained wire :=
  h.congr ⟨rfl, rfl, List.Subset.refl _⟩ id id fun job hjob hcancel => ⟨job, hjob, hcancel⟩

private theorem Explained.take (h : s.Explained wire) (hmain : s.main = .reading)
    {main : MainPhase Payload}
    (hjobs : mainJobs { s with main := main } = [job]) (hcancel : job.cancelling = false) :
    Explained wire { s with main := main } := by
  refine h.congr ⟨rfl, rfl, List.Subset.refl _⟩ id (fun hleft => ?_) fun other hother hother' => ?_
  · unfold isServing at hleft
    rw [hmain] at hleft
    cases hleft
  · change other ∈ mainJobs { s with main := main } ++ s.tasks at hother
    rw [hjobs, List.singleton_append] at hother
    rcases List.mem_cons.mp hother with rfl | hother
    · rw [hcancel] at hother'
      cases hother'
    · exact ⟨other, mem_jobs_of_task hother, hother'⟩

private theorem Explained.reply (h : s.Explained wire) (hmain : s.main = .reading)
    (serial : Option Nat)
    (value : Json) (completes : Option RequestId) (response : Response Payload) :
    (s.reply wire serial value completes response).Explained wire := by
  unfold Server.reply
  split
  · exact h.take hmain rfl rfl
  · exact explained_leave _

private theorem Explained.dispatchValue (h : s.Explained wire) (hmain : s.main = .reading) (n : Nat)
    {value : Json} (hvalue : value ∈ s.log.received) :
    (s.dispatchValue wire n value).Explained wire := by
  unfold Server.dispatchValue
  split
  · split
    · next hshutdown =>
      refine ⟨fun m hm => ?_, fun _ _ => rfl, fun _ _ _ => rfl,
        fun _ => .inr ⟨value, hvalue, hshutdown⟩⟩
      rcases h.failed m hm with hfail | ⟨task, htask, hphase⟩ | hleft
      · exact .inl hfail
      · exact .inr (.inl ⟨task.cancel, List.mem_map_of_mem htask, hphase⟩)
      · unfold isServing at hleft
        rw [hmain] at hleft
        cases hleft
    · exact h.take hmain rfl rfl
  · split
    · split
      · exact h.reply hmain _ _ _ _
      · exact h
    · refine h.congr ⟨rfl, rfl, List.Subset.refl _⟩ (fun hfail => ?_) id ?_
      · refine hfail.imp_right ?_
        rintro ⟨task, htask, hphase⟩
        exact ⟨task, List.mem_append_left _ htask, hphase⟩
      · intro job hjob hcancel
        change job ∈ s.mainJobs ++ (s.tasks ++ [dispatchJob wire n value]) at hjob
        rw [← List.append_assoc] at hjob
        rcases List.mem_append.mp hjob with hjob | hjob
        · exact ⟨job, hjob, hcancel⟩
        · rw [List.mem_singleton.mp hjob] at hcancel
          cases hcancel

private theorem Explained.receiveValue (h : s.Explained wire) (hmain : s.main = .reading)
    (value : Json)
    (rejection : Option BootstrapRejection) :
    (s.receiveValue wire value rejection).Explained wire := by
  unfold Server.receiveValue
  dsimp only
  split
  · exact (h.received value).reply hmain _ _ _ _
  · split
    · split
      · exact ((h.received value).tracking _).reply hmain _ _ _ _
      · exact (h.received value).tracking _
    · refine ((h.received value).tracking _).dispatchValue hmain _ ?_
      exact List.mem_append_right _ (List.mem_singleton_self value)

private theorem mem_losses {n : Nat} {loss : Loss} (h : (n, loss) ∈ job.losses) :
    loss = .failed ∧ job.phase = .finished .failed ∨
      loss ≠ .failed ∧ job.phase = .finished .cancelled ∧
        (loss = .interrupted → job.cancelling = true) := by
  unfold Job.losses at h
  split at h
  · next hphase =>
    obtain ⟨m, -, hpair⟩ := List.mem_map.mp h
    exact .inl ⟨(Prod.mk.inj hpair).2.symm, hphase⟩
  · next hphase =>
    obtain ⟨m, -, hpair⟩ := List.mem_map.mp h
    have hloss := (Prod.mk.inj hpair).2
    refine .inr ⟨?_, hphase, fun hinterrupted => ?_⟩
    · rw [← hloss]
      split <;> simp
    · rw [hinterrupted] at hloss
      split at hloss
      · next hcancel => exact hcancel
      · cases hloss
  · cases h

private theorem losses_eq_nil (h : ∀ outcome, job.phase = .finished outcome →
    ∃ response, outcome = .done response) : job.losses = [] := by
  unfold Job.losses
  split
  · next hphase =>
    obtain ⟨response, heq⟩ := h _ hphase
    cases heq
  · next hphase =>
    obtain ⟨response, heq⟩ := h _ hphase
    cases heq
  · rfl

/-- The job of the loop moves. -/
theorem Explained.loop (h : s.Explained wire) (hmain : s.main = .replying job ∨
    s.main = .urgent job) {output : Option (Response Payload)} {invoked : Bool}
    (hmoved : job.Moved wire moved output) :
    (((s.invoke invoked).note moved output).proceed wire moved).Explained wire := by
  have hjob : job ∈ s.jobs := by
    rcases hmain with hmain | hmain <;>
      simp only [jobs, mainJobs, hmain, List.singleton_append, List.mem_cons, true_or]
  have hserving : s.isServing = true := by
    rcases hmain with hmain | hmain <;> simp only [isServing, hmain]
  have hnote : ∀ main, (∀ outcome, moved.phase = .finished outcome →
        ∃ response, outcome = .done response) →
      (∀ other ∈ mainJobs { s with main := main }, other = moved) →
        Explained wire { (s.invoke invoked).note moved output with main := main } := by
    intro main hsent hmains
    refine h.congr ⟨?_, rfl, List.Subset.refl _⟩ id (fun hleft => ?_) fun other hother hcancel => ?_
    · change s.log.lost ++ moved.losses = _
      rw [losses_eq_nil hsent, List.append_nil]
    · rw [hserving] at hleft
      cases hleft
    · rcases List.mem_append.mp hother with hother | hother
      · obtain rfl := hmains other hother
        rw [hmoved.eq_goto] at hcancel
        exact ⟨job, hjob, hcancel⟩
      · exact ⟨other, mem_jobs_of_task hother, hcancel⟩
  unfold Server.proceed
  split
  · next response hphase =>
    have hsent : ∀ outcome, moved.phase = .finished outcome →
        ∃ response, outcome = .done response := by
      intro outcome houtcome
      rw [hphase] at houtcome
      cases houtcome
      exact ⟨response, rfl⟩
    split
    · exact hnote .reading hsent fun _ hother => by cases hother
    · split
      · exact explained_leave _
      · exact hnote .reading hsent fun _ hother => by cases hother
  · exact explained_leave _
  · next hdone hlost =>
    refine hnote _ (fun outcome houtcome => absurd houtcome (hlost outcome)) fun other hother => ?_
    split at hother <;> exact List.mem_singleton.mp hother

private theorem Explained.task (h : s.Explained wire) {before after : List (Job Payload)}
    (hsplit : s.tasks = before ++ job :: after) {output : Option (Response Payload)}
    {invoked : Bool} (hmoved : job.Moved wire moved output) :
    (((s.invoke invoked).note moved output).withTasks (before ++ moved :: after)).Explained
      wire := by
  have hcancel : moved.cancelling = job.cancelling := by
    rw [hmoved.eq_goto]
    rfl
  have hjob : job ∈ s.jobs := mem_jobs_of_task (hsplit ▸ Ledger.mem_middle.2 (.inl rfl))
  refine ⟨fun n hn => ?_, fun n hn => ?_, fun other hother hcancelling => ?_, h.cause⟩
  · rcases List.mem_append.mp hn with hn | hn
    · rcases h.failed n hn with hfail | ⟨task, htask, hphase⟩ | hleft
      · exact .inl hfail
      · refine .inr (.inl ⟨task, Ledger.mem_middle.2 (.inr ?_), hphase⟩)
        rcases Ledger.mem_middle.1 (hsplit ▸ htask) with rfl | htask
        · have hunfinished := hmoved.unfinished
          unfold Job.isFinished at hunfinished
          rw [hphase] at hunfinished
          cases hunfinished
        · exact htask
      · exact .inr (.inr hleft)
    · rcases mem_losses hn with ⟨-, hphase⟩ | ⟨hne, -⟩
      · exact .inr (.inl ⟨moved, Ledger.mem_middle.2 (.inl rfl), hphase⟩)
      · exact absurd rfl hne
  · rcases List.mem_append.mp hn with hn | hn
    · exact h.interrupted n hn
    · rcases mem_losses hn with ⟨hne, -⟩ | ⟨-, -, hcancelling⟩
      · cases hne
      · exact h.cancelling job hjob (hcancel ▸ hcancelling rfl)
  · rcases List.mem_append.mp hother with hother | hother
    · exact h.cancelling other (List.mem_append_left _ hother) hcancelling
    · rcases Ledger.mem_middle.1 hother with rfl | hother
      · exact h.cancelling job hjob (hcancel ▸ hcancelling)
      · refine h.cancelling other (mem_jobs_of_task ?_) hcancelling
        exact hsplit ▸ Ledger.mem_middle.2 (.inr hother)

private theorem Explained.step (h : s.Explained wire) {a : ServerAction Payload}
    (ht : Stepped wire s a t) : t.Explained wire := by
  cases ht with
  | unreadable hmain => exact h.reply hmain _ _ _ _
  | blank => exact h
  | value hmain => exact h.receiveValue hmain _ _
  | endOfInput _ => exact explained_leave _
  | notice _ => exact explained_leave _
  | loop hmain hmoved => exact h.loop hmain hmoved
  | task hsplit hmoved => exact h.task hsplit hmoved
  | @discard i job outcome failed before after hsplit hphase hfailed =>
    refine h.congr ⟨rfl, rfl, List.Subset.refl _⟩ (fun hfail => ?_) id fun other hother hcancel =>
      ⟨other, ?_, hcancel⟩
    · change (s.requestFailed || failed) = true ∨ ∃ task ∈ before ++ after, _
      rcases hfail with hfail | ⟨task, htask, hphase'⟩
      · rw [hfail]
        exact .inl rfl
      · rcases Ledger.mem_middle.1 (hsplit ▸ htask) with rfl | htask
        · rw [hphase] at hphase'
          rw [hfailed (JobPhase.finished.inj hphase'), Bool.or_true]
          exact .inl rfl
        · exact .inr ⟨task, htask, hphase'⟩
    · rcases List.mem_append.mp hother with hother | hother
      · exact List.mem_append_left _ hother
      · exact mem_jobs_of_task (hsplit ▸ Ledger.mem_middle.2 (.inr hother))
  | drained hmain =>
    refine h.congr ⟨rfl, rfl, List.Subset.refl _⟩ id (fun hleft => ?_) fun other hother hcancel =>
      ⟨other, ?_, hcancel⟩
    · unfold isServing at hleft
      rw [hmain] at hleft
      cases hleft
    · simp only [jobs, mainJobs, hmain]
      exact hother
  | closed _ =>
    exact h.congr ⟨rfl, rfl, List.Subset.refl _⟩ id (fun _ => rfl) fun other hother hcancel =>
      ⟨other, mem_jobs_of_task hother, hcancel⟩

/-! ## Runs -/

/-- What holds of the requests that were received. -/
structure AnswersRequests (wire : Wire Payload) (s : Server Payload) : Prop where
  /-- No request is answered twice. -/
  once : (s.log.output.filterMap Prod.fst).Nodup
  /-- An answer has the identifier of its request; a notification is not answered. -/
  own : ∀ n response, (some n, response) ∈ s.log.output → ∃ value,
    s.log.received[n]? = some value ∧ ∀ request, parseJsonrpcRequest wire value = some request →
      request.hasId = true ∧ response.id = request.id
  /-- A request with an identifier is in progress, answered or noted as lost. -/
  accounted : ∀ n value request, s.log.received[n]? = some value →
    parseJsonrpcRequest wire value = some request → request.hasId = true →
      (∃ job ∈ s.jobs, job.serial = some n ∧ job.isFinished = false) ∨
        (∃ response, (some n, response) ∈ s.log.output) ∨ ∃ loss, (n, loss) ∈ s.log.lost
  /-- A request is lost by a failure only if the failure ends the server. -/
  failed : ∀ n, (n, Loss.failed) ∈ s.log.lost → s.requestFailed = true ∨
    (∃ task ∈ s.tasks, task.phase = .finished .failed) ∨ s.isServing = false
  /-- A request is interrupted only by a shutdown or at the end of the server. -/
  interrupted : ∀ n, (n, Loss.interrupted) ∈ s.log.lost → s.isServing = false ∨
    ∃ value ∈ s.log.received, validShutdownRequest wire value = true

/-- In every run the requests are answered. -/
theorem run_answersRequests
    (h : Run (step wire) (fun _ _ => True) (initial : Server Payload) s) :
    s.AnswersRequests wire := by
  have hinvariant : s.Accounted wire ∧ s.Explained wire := by
    refine h.invariant (I := fun s => s.Accounted wire ∧ s.Explained wire)
      ⟨Ledger.empty, explained_initial⟩ ?_
    rintro t a u ⟨haccounted, hexplained⟩ - hstep
    exact ⟨haccounted.step (step_stepped hstep), hexplained.step (step_stepped hstep)⟩
  obtain ⟨haccounted, hexplained⟩ := hinvariant
  refine ⟨haccounted.once, haccounted.own, ?_, hexplained.failed, ?_⟩
  · intro n value request hvalue hrequest hhas
    rcases haccounted.accounted n value hvalue with hsilent | hjob | hsent | hlost
    · rw [hsilent request hrequest] at hhas
      cases hhas
    · exact .inl hjob
    · obtain ⟨⟨m, response⟩, hmem, hfst⟩ := List.mem_map.mp hsent
      obtain rfl : m = some n := hfst
      exact .inr (.inl ⟨response, hmem⟩)
    · obtain ⟨⟨m, loss⟩, hmem, hfst⟩ := List.mem_map.mp hlost
      obtain rfl : m = n := hfst
      exact .inr (.inr ⟨loss, hmem⟩)
  · exact fun n hn => hexplained.cause (hexplained.interrupted n hn)

/-! ## A run -/

/-- A request as a client sends it. -/
def requestValue (id method : String) : Json :=
  let units := fun name : String => name.toList.flatMap JsonText.unitsOf
  .object [(units "jsonrpc", .string (units "2.0")), (units "id", .string (units id)),
    (units "method", .string (units method))]

/-- A wire on which every response is a frame. -/
def plainWire : Wire Unit := ⟨fun _ => none, fun _ => none, fun _ => true⟩

/-- A request is dispatched, sent again and refused, answered, and the input ends. -/
def answeredActions : List (ServerAction Unit) :=
  [.receive (.value (requestValue "a" "thread.list")) none,
    .receive (.value (requestValue "a" "thread.list")) none, .loop .put, .loop .flushed,
    .task 0 (.handled (.completed (some ()))), .task 0 .put, .task 0 .flushed, .discard 0,
    .endOfInput, .closed]

/-- The numbers of the values that were answered in a run. -/
def answeredNumbers (s : Server Unit) : List (Option Nat) := s.log.output.map Prod.fst

/-- A repeated identifier is answered once as a request and once as an error. -/
theorem run_answersRequests_repeated : ∃ s : Server Unit,
    s.answeredNumbers = [some 1, some 0] ∧ s.AnswersRequests plainWire := by
  cases hrun : answeredActions.foldlM (step plainWire) initial with
  | none => exact absurd hrun (by decide)
  | some s =>
    have hend : (answeredActions.foldlM (step plainWire) initial).map answeredNumbers =
        some [some 1, some 0] := by decide
    rw [hrun] at hend
    exact ⟨s, Option.some.inj hend,
      run_answersRequests (Run.of_actions hrun fun _ _ _ => trivial)⟩

end AwesomeAgent.Server
