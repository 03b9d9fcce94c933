import AwesomeAgent.Protocol.Server

/-!
# The account of requests

Each request with an identifier is in progress, answered once with its identifier, or noted as left
without an answer. The account does not depend on where a job runs.
-/

namespace AwesomeAgent

variable {Payload : Type} {wire : Wire Payload}

/-! ## One event of a job -/

/-- A response answers a value as it should: a request that has an identifier, with it. -/
def Answers (wire : Wire Payload) (value : Json) (response : Response Payload) : Prop :=
  ∀ request, parseJsonrpcRequest wire value = some request →
    request.hasId = true ∧ response.id = request.id

/-- A value asks for no answer. -/
def IsSilent (wire : Wire Payload) (value : Json) : Prop :=
  ∀ request, parseJsonrpcRequest wire value = some request → request.hasId = false

/-- How a job moves, and what it puts into the output. -/
inductive Job.Moved (wire : Wire Payload) (job : Job Payload) :
    Job Payload → Option (Response Payload) → Prop
  | send {response : Response Payload} : job.phase = .handling →
      Answers wire job.value response → Moved wire job (job.goto (.sending response)) none
  | silent : job.phase = .handling → IsSilent wire job.value →
      Moved wire job (job.goto (.finished (.done none))) none
  | lose {outcome : JobEnd Payload} : job.isFinished = false →
      outcome = .failed ∨ outcome = .cancelled → Moved wire job (job.goto (.finished outcome)) none
  | put {response : Response Payload} : job.phase = .sending response →
      Moved wire job (job.goto (.flushing response)) (some response)
  | finish {response : Response Payload} : job.phase = .flushing response →
      Moved wire job (job.goto (.finished (.done (some response)))) none

private theorem Wire.framed_id {id : Option RequestId} {response framed : Response Payload}
    (h : wire.framed id response = some framed) : framed = response ∨ framed.id = id := by
  unfold Wire.framed at h
  split at h
  · cases h
    exact .inl rfl
  · obtain ⟨hframed, -⟩ := Option.filter_eq_some_iff.mp h
    cases hframed
    exact .inr rfl
  · obtain ⟨hframed, -⟩ := Option.filter_eq_some_iff.mp h
    cases hframed
    exact .inr rfl

variable {job : Job Payload} {output : Option (Response Payload)}

private theorem moved_of_dispatch (hphase : job.phase = .handling)
    (outcome : HandlerOutcome Payload) :
    job.Moved wire (job.goto (wire.afterDispatch (requestIdOf wire job.value)
      (dispatch wire job.value outcome))) none := by
  have hunfinished : job.isFinished = false := by
    unfold Job.isFinished
    rw [hphase]
  unfold Wire.afterDispatch
  cases hdispatch : dispatch wire job.value outcome with
  | unserializable => exact .lose hunfinished (.inl rfl)
  | response response =>
    cases response with
    | none =>
      refine .silent hphase fun request hrequest => ?_
      exact (dispatch_response hrequest hdispatch).1.symm
    | some response =>
      dsimp only
      cases hframed : wire.framed (requestIdOf wire job.value) response with
      | none => exact .lose hunfinished (.inl rfl)
      | some framed =>
        refine .send hphase fun request hrequest => ?_
        obtain ⟨hid, hresponse⟩ := dispatch_response hrequest hdispatch
        refine ⟨hid.symm, ?_⟩
        rcases Wire.framed_id hframed with rfl | hframed
        · exact hresponse framed rfl
        · rw [hframed, (id_of_parse hrequest).1]

/-- What an event does to a job. -/
theorem Job.step_moved {moved : Job Payload} {event : JobEvent Payload}
    (h : job.step wire event = some (moved, output)) :
    job.Moved wire moved output := by
  unfold Job.step at h
  split at h
  · next hphase =>
    cases h
    exact moved_of_dispatch hphase _
  · next hphase =>
    cases h
    exact .lose (by simp only [Job.isFinished, hphase]) (.inr rfl)
  · next hphase =>
    split at h <;> cases h
    exact .lose (by simp only [Job.isFinished, hphase]) (.inr rfl)
  · next hphase =>
    split at h <;> cases h
    exact .lose (by simp only [Job.isFinished, hphase]) (.inr rfl)
  · next hphase =>
    cases h
    exact .put hphase
  · next hphase =>
    cases h
    exact .lose (by simp only [Job.isFinished, hphase]) (.inl rfl)
  · next hphase =>
    cases h
    exact .finish hphase
  · next hphase =>
    cases h
    exact .lose (by simp only [Job.isFinished, hphase]) (.inl rfl)
  · cases h

/-- A job that moves keeps everything but its phase. -/
theorem Job.Moved.eq_goto {moved : Job Payload}
    (h : job.Moved wire moved output) : moved = job.goto moved.phase := by
  cases h <;> rfl

/-- A job that moves was not over. -/
theorem Job.Moved.unfinished {moved : Job Payload}
    (h : job.Moved wire moved output) : job.isFinished = false := by
  cases h with
  | send hphase _ => simp only [Job.isFinished, hphase]
  | silent hphase _ => simp only [Job.isFinished, hphase]
  | lose hunfinished _ => exact hunfinished
  | put hphase => simp only [Job.isFinished, hphase]
  | finish hphase => simp only [Job.isFinished, hphase]

/-! ## The ledger -/

/-- What the phase of a job with a number, or without one, says about the output. -/
def JobPhase.Sound (wire : Wire Payload) (output : List (Option Nat × Response Payload))
    (value : Json) : Option Nat → JobPhase Payload → Prop
  | some n, .handling => some n ∉ output.map Prod.fst
  | some n, .sending response => some n ∉ output.map Prod.fst ∧ Answers wire value response
  | some n, .flushing response => (some n, response) ∈ output
  | none, .handling => False
  | none, .sending response => response.id = none
  | _, _ => True

/-- What holds of a job: the value with its number was received, and its answer is in the output
when it was put there. -/
structure Job.Sound (wire : Wire Payload) (received : List Json)
    (output : List (Option Nat × Response Payload)) (job : Job Payload) : Prop where
  value : ∀ n, job.serial = some n → received[n]? = some job.value
  phase : job.phase.Sound wire output job.value job.serial

/-- The account of the requests that were received. -/
structure Ledger (wire : Wire Payload) (received : List Json)
    (output : List (Option Nat × Response Payload)) (lost : List (Nat × Loss))
    (jobs : List (Job Payload)) : Prop where
  serials : (jobs.filterMap Job.serial).Nodup
  sound : ∀ job ∈ jobs, job.Sound wire received output
  once : (output.filterMap Prod.fst).Nodup
  own : ∀ n response, (some n, response) ∈ output →
    ∃ value, received[n]? = some value ∧ Answers wire value response
  stray : ∀ response, (none, response) ∈ output → response.id = none
  accounted : ∀ n value, received[n]? = some value → IsSilent wire value ∨
    (∃ job ∈ jobs, job.serial = some n ∧ job.isFinished = false) ∨
      some n ∈ output.map Prod.fst ∨ n ∈ lost.map Prod.fst

/-- The account of a log. -/
abbrev ServerLog.Balanced (wire : Wire Payload) (log : ServerLog Payload)
    (jobs : List (Job Payload)) : Prop :=
  Ledger wire log.received log.output log.lost jobs

private theorem JobPhase.sound_finished {output : List (Option Nat × Response Payload)}
    {value : Json}
    (serial : Option Nat) (outcome : JobEnd Payload) :
    JobPhase.Sound wire output value serial (.finished outcome) := by
  cases serial <;> trivial

private theorem Job.Sound.grow {received : List Json}
    {output : List (Option Nat × Response Payload)}
    (h : job.Sound wire received output) {serial : Option Nat}
    (hother : ∀ n, job.serial = some n → serial ≠ some n) (response : Response Payload) :
    job.Sound wire received (output ++ [(serial, response)]) := by
  refine ⟨h.value, ?_⟩
  have hphase := h.phase
  have hunsent : ∀ n, job.serial = some n → some n ∉ output.map Prod.fst →
      some n ∉ (output ++ [(serial, response)]).map Prod.fst := by
    intro n hn hnot hmem
    rw [List.map_append] at hmem
    rcases List.mem_append.mp hmem with hmem | hmem
    · exact hnot hmem
    · exact hother n hn (List.mem_singleton.mp hmem).symm
  cases hserial : job.serial with
  | none =>
    rw [hserial] at hphase
    cases hcase : job.phase <;> rw [hcase] at hphase <;> exact hphase
  | some n =>
    rw [hserial] at hphase
    cases hcase : job.phase with
    | handling =>
      rw [hcase] at hphase
      exact hunsent n hserial hphase
    | sending own =>
      rw [hcase] at hphase
      exact ⟨hunsent n hserial hphase.1, hphase.2⟩
    | flushing own =>
      rw [hcase] at hphase
      exact List.mem_append_left _ hphase
    | finished outcome => trivial

namespace Ledger

variable {received : List Json} {output : List (Option Nat × Response Payload)}
  {lost : List (Nat × Loss)} {jobs other before after : List (Job Payload)}
  {job moved : Job Payload}

/-- An empty ledger is one. -/
theorem empty : Ledger wire [] [] [] [] where
  serials := List.nodup_nil
  sound _ hjob := by cases hjob
  once := List.nodup_nil
  own _ _ hmem := by cases hmem
  stray _ hmem := by cases hmem
  accounted _ _ hvalue := by cases hvalue

/-- The ledger does not depend on the order of the jobs. -/
theorem perm (h : Ledger wire received output lost jobs) (hperm : other.Perm jobs) :
    Ledger wire received output lost other :=
  { h with
    serials := (hperm.filterMap _).nodup_iff.mpr h.serials
    sound := fun job hjob => h.sound job (hperm.mem_iff.mp hjob)
    accounted := fun n value hvalue => (h.accounted n value hvalue).imp_right <| Or.imp_left
      fun ⟨job, hjob, hrest⟩ => ⟨job, hperm.mem_iff.mpr hjob, hrest⟩ }

/-- The ledger does not depend on what cancels the jobs. -/
theorem cancel (h : Ledger wire received output lost jobs) :
    Ledger wire received output lost (jobs.map Job.cancel) where
  serials := by
    rw [List.filterMap_map]
    exact h.serials
  sound job hjob := by
    obtain ⟨same, hsame, rfl⟩ := List.mem_map.mp hjob
    exact ⟨(h.sound same hsame).value, (h.sound same hsame).phase⟩
  once := h.once
  own := h.own
  stray := h.stray
  accounted n value hvalue := (h.accounted n value hvalue).imp_right <| Or.imp_left
    fun ⟨job, hjob, hrest⟩ => ⟨job.cancel, List.mem_map_of_mem hjob, hrest⟩

/-- An item stands in the middle of a list. -/
theorem mem_middle {α : Type} {x item : α} {front back : List α} :
    x ∈ front ++ item :: back ↔ x = item ∨ x ∈ front ++ back := by
  simp only [List.mem_append, List.mem_cons]
  tauto

/-- A job that is over leaves. -/
theorem discard (h : Ledger wire received output lost (before ++ job :: after))
    (hfinished : job.isFinished = true) :
    Ledger wire received output lost (before ++ after) where
  serials := h.serials.sublist (((List.sublist_cons_self job after).append_left before).filterMap _)
  sound other hother := h.sound other (mem_middle.2 (.inr hother))
  once := h.once
  own := h.own
  stray := h.stray
  accounted n value hvalue := by
    refine (h.accounted n value hvalue).imp_right (Or.imp_left ?_)
    rintro ⟨other, hother, hserial, hunfinished⟩
    rcases mem_middle.1 hother with rfl | hother
    · rw [hfinished] at hunfinished
      cases hunfinished
    · exact ⟨other, hother, hserial, hunfinished⟩

private theorem serial_ne (h : Ledger wire received output lost (before ++ job :: after))
    {other : Job Payload} (hother : other ∈ before ++ after) {n : Nat}
    (hn : other.serial = some n) : job.serial ≠ some n := by
  intro hjob
  have hserials := h.serials
  rw [List.filterMap_append, List.filterMap_cons_some hjob] at hserials
  have hfresh := (List.nodup_cons.mp (List.perm_middle.nodup_iff.mp hserials)).1
  rw [← List.filterMap_append] at hfresh
  exact hfresh (List.mem_filterMap.mpr ⟨other, hother, hn⟩)

private theorem goto (h : Ledger wire received output lost (before ++ job :: after))
    {phase : JobPhase Payload} (hphase : phase.Sound wire output job.value job.serial)
    {more : List (Nat × Loss)} (hover : ∀ n, job.serial = some n → IsSilent wire job.value ∨
      (job.goto phase).isFinished = false ∨ some n ∈ output.map Prod.fst ∨
        n ∈ more.map Prod.fst) :
    Ledger wire received output (lost ++ more) (before ++ job.goto phase :: after) where
  serials := by
    have hserials := h.serials
    rw [List.filterMap_append, List.filterMap_cons] at hserials ⊢
    exact hserials
  sound other hother := by
    rcases mem_middle.1 hother with rfl | hother
    · exact ⟨(h.sound job (mem_middle.2 (.inl rfl))).value, hphase⟩
    · exact h.sound other (mem_middle.2 (.inr hother))
  once := h.once
  own := h.own
  stray := h.stray
  accounted n value hvalue := by
    rw [List.map_append, List.mem_append]
    rcases h.accounted n value hvalue with hsilent | ⟨other, hother, hn, hunfinished⟩ | hrest
    · exact .inl hsilent
    · rcases mem_middle.1 hother with rfl | hother
      · have hsame := (h.sound other (mem_middle.2 (.inl rfl))).value n hn
        obtain rfl := Option.some.inj (hsame.symm.trans hvalue)
        refine (hover n hn).imp_right (Or.imp (fun hopen => ?_) (Or.imp_right .inr))
        exact ⟨_, mem_middle.2 (.inl rfl), hn, hopen⟩
      · exact .inr (.inl ⟨other, mem_middle.2 (.inr hother), hn, hunfinished⟩)
    · exact .inr (.inr (hrest.imp_right .inl))

variable {response : Response Payload}

/-- A job puts its answer into the output. -/
theorem put (h : Ledger wire received output lost (before ++ job :: after))
    (hphase : job.phase = .sending response) :
    Ledger wire received (output ++ [(job.serial, response)]) lost
      (before ++ job.goto (.flushing response) :: after) := by
  have hjob := h.sound job (mem_middle.2 (.inl rfl))
  have hsending := hjob.phase
  rw [hphase] at hsending
  refine ⟨?_, fun other hother => ?_, ?_, fun n sent hmem => ?_, fun sent hmem => ?_,
    fun n value hvalue => ?_⟩
  · have hserials := h.serials
    rw [List.filterMap_append, List.filterMap_cons] at hserials ⊢
    exact hserials
  · rcases mem_middle.1 hother with rfl | hother
    · refine ⟨hjob.value, ?_⟩
      change JobPhase.Sound _ _ _ job.serial _
      cases job.serial with
      | none => trivial
      | some n => exact List.mem_append_right _ List.mem_cons_self
    · exact (h.sound other (mem_middle.2 (.inr hother))).grow
        (fun n hn => h.serial_ne hother hn) response
  · cases hserial : job.serial with
    | none =>
      rw [List.filterMap_append, List.filterMap_cons_none rfl, List.filterMap_nil, List.append_nil]
      exact h.once
    | some n =>
      rw [hserial] at hsending
      have hsingle : [(some n, response)].filterMap Prod.fst = [n] := rfl
      rw [List.filterMap_append, hsingle]
      refine List.nodup_append.mpr ⟨h.once, List.pairwise_singleton _ n, ?_⟩
      rintro m hm k hk rfl
      rw [List.mem_singleton.mp hk] at hm
      obtain ⟨entry, hentry, hfst⟩ := List.mem_filterMap.mp hm
      exact hsending.1 (hfst ▸ List.mem_map_of_mem hentry)
  · rcases List.mem_append.mp hmem with hmem | hmem
    · exact h.own n sent hmem
    · obtain ⟨hn, rfl⟩ := Prod.mk.inj (List.mem_singleton.mp hmem)
      rw [← hn] at hsending
      exact ⟨job.value, hjob.value n hn.symm, hsending.2⟩
  · rcases List.mem_append.mp hmem with hmem | hmem
    · exact h.stray sent hmem
    · obtain ⟨hnone, rfl⟩ := Prod.mk.inj (List.mem_singleton.mp hmem)
      rw [← hnone] at hsending
      exact hsending
  · rw [List.map_append, List.mem_append]
    rcases h.accounted n value hvalue with hsilent | ⟨other, hother, hn, hunfinished⟩ | hrest
    · exact .inl hsilent
    · rcases mem_middle.1 hother with rfl | hother
      · exact .inr (.inr (.inl (.inr (hn ▸ List.mem_cons_self))))
      · exact .inr (.inl ⟨other, mem_middle.2 (.inr hother), hn, hunfinished⟩)
    · exact .inr (.inr (hrest.imp_left .inl))

/-- A job moves. -/
theorem move (h : Ledger wire received output lost (before ++ job :: after))
    {response : Option (Response Payload)} (hmoved : job.Moved wire moved response) :
    Ledger wire received (output ++ response.toList.map fun r => (moved.serial, r))
      (lost ++ moved.losses) (before ++ moved :: after) := by
  have hjob := h.sound job (mem_middle.2 (.inl rfl))
  have hphase := hjob.phase
  cases hmoved with
  | put hsending =>
    rw [show (job.goto (.flushing _)).losses = [] from rfl, List.append_nil]
    exact h.put hsending
  | @send sent hhandling hanswers =>
    rw [Option.toList_none, List.map_nil, List.append_nil]
    rw [hhandling] at hphase
    refine h.goto ?_ fun _ _ => .inr (.inl rfl)
    cases hserial : job.serial with
    | none =>
      rw [hserial] at hphase
      exact hphase.elim
    | some n =>
      rw [hserial] at hphase
      exact ⟨hphase, hanswers⟩
  | silent _ hsilent =>
    rw [Option.toList_none, List.map_nil, List.append_nil]
    exact h.goto (JobPhase.sound_finished _ _) fun _ _ => .inl hsilent
  | lose _ houtcome =>
    rw [Option.toList_none, List.map_nil, List.append_nil]
    refine h.goto (JobPhase.sound_finished _ _) fun n hn => .inr (.inr (.inr ?_))
    rcases houtcome with rfl | rfl <;> simp [Job.losses, Job.goto, hn]
  | finish hflushing =>
    rw [Option.toList_none, List.map_nil, List.append_nil]
    rw [hflushing] at hphase
    refine h.goto (JobPhase.sound_finished _ _) fun n hn => .inr (.inr (.inl ?_))
    rw [hn] at hphase
    exact List.mem_map_of_mem hphase

private theorem extend (h : Ledger wire received output lost jobs) {values : List Json}
    {opened : List (Job Payload)} {more : List (Nat × Loss)}
    (hserials : ((opened ++ jobs).filterMap Job.serial).Nodup)
    (hopened : ∀ job ∈ opened, job.Sound wire (received ++ values) output)
    (haccounted : ∀ n value, (received ++ values)[n]? = some value → received.length ≤ n →
      IsSilent wire value ∨ (∃ job ∈ opened, job.serial = some n ∧ job.isFinished = false) ∨
        n ∈ more.map Prod.fst) :
    Ledger wire (received ++ values) output (lost ++ more) (opened ++ jobs) := by
  have hkept : ∀ (n : Nat) value, received[n]? = some value →
      (received ++ values)[n]? = some value := by
    intro n value hvalue
    rwa [List.getElem?_append_left (List.getElem?_eq_some_iff.mp hvalue).1]
  refine ⟨hserials, fun job hjob => ?_, h.once, fun n response hmem => ?_, h.stray,
    fun n value hvalue => ?_⟩
  · rcases List.mem_append.mp hjob with hjob | hjob
    · exact hopened job hjob
    · have hsound := h.sound job hjob
      exact ⟨fun n hn => hkept n _ (hsound.value n hn), hsound.phase⟩
  · obtain ⟨value, hvalue, hanswers⟩ := h.own n response hmem
    exact ⟨value, hkept n value hvalue, hanswers⟩
  · rw [List.map_append, List.mem_append]
    rcases Nat.lt_or_ge n received.length with hn | hn
    · rw [List.getElem?_append_left hn] at hvalue
      refine (h.accounted n value hvalue).imp_right (Or.imp ?_ (Or.imp_right .inl))
      rintro ⟨job, hjob, hrest⟩
      exact ⟨job, List.mem_append_right _ hjob, hrest⟩
    · refine (haccounted n value hvalue hn).imp_right (Or.imp ?_ fun hmore => .inr (.inr hmore))
      rintro ⟨job, hjob, hrest⟩
      exact ⟨job, List.mem_append_left _ hjob, hrest⟩

/-- The loop answers by itself without a number. -/
theorem replyUnnumbered (h : Ledger wire received output lost jobs) (hserial : job.serial = none)
    (hphase : job.phase = .sending response)
    (hid : response.id = none) : Ledger wire received output lost (job :: jobs) := by
  have hextend : Ledger wire (received ++ []) output (lost ++ []) ([job] ++ jobs) := by
    refine h.extend ?_ (fun other hother => ?_) fun n value hvalue hn => ?_
    · rw [List.singleton_append, List.filterMap_cons_none hserial]
      exact h.serials
    · rw [List.mem_singleton.mp hother]
      refine ⟨fun n hn => ?_, ?_⟩
      · rw [hserial] at hn
        cases hn
      · rw [hserial, hphase]
        exact hid
    · rw [List.append_nil, List.getElem?_eq_none hn] at hvalue
      cases hvalue
  rwa [List.append_nil, List.append_nil] at hextend

private theorem eq_length_of_concat {value other : Json} {n : Nat}
    (h : (received ++ [value])[n]? = some other) (hn : received.length ≤ n) :
    n = received.length ∧ other = value := by
  have hlt := (List.getElem?_eq_some_iff.mp h).1
  rw [List.length_append, List.length_singleton] at hlt
  obtain rfl : n = received.length := by omega
  rw [List.getElem?_concat_length] at h
  exact ⟨rfl, (Option.some.inj h).symm⟩

/-- A value is received that asks for no answer, or that is noted as lost. -/
theorem receive (h : Ledger wire received output lost jobs) (value : Json)
    (more : List (Nat × Loss))
    (hsilent : IsSilent wire value ∨ received.length ∈ more.map Prod.fst) :
    Ledger wire (received ++ [value]) output (lost ++ more) jobs := by
  show Ledger wire (received ++ [value]) output _ ([] ++ jobs)
  refine h.extend h.serials (fun _ hjob => by cases hjob) fun n other hother hn => ?_
  obtain ⟨rfl, rfl⟩ := eq_length_of_concat hother hn
  exact hsilent.imp_right .inr

/-- A value is received and a job is opened for it. -/
theorem openJob (h : Ledger wire received output lost jobs) (job : Job Payload)
    (hserial : job.serial = some received.length)
    (hphase : job.phase = .handling ∨
      ∃ response, job.phase = .sending response ∧ Answers wire job.value response) :
    Ledger wire (received ++ [job.value]) output lost (job :: jobs) := by
  have hfresh : some received.length ∉ output.map Prod.fst := by
    intro hmem
    obtain ⟨⟨m, response⟩, hentry, hfst⟩ := List.mem_map.mp hmem
    obtain rfl : m = some received.length := hfst
    obtain ⟨value, hvalue, -⟩ := h.own _ response hentry
    exact Nat.lt_irrefl _ (List.getElem?_eq_some_iff.mp hvalue).1
  have hextend : Ledger wire (received ++ [job.value]) output (lost ++ []) ([job] ++ jobs) := by
    refine h.extend ?_ (fun other hother => ?_) fun n value hvalue hn => .inr (.inl ⟨job, ?_, ?_⟩)
    · rw [List.singleton_append, List.filterMap_cons_some hserial, List.nodup_cons]
      refine ⟨fun hmem => ?_, h.serials⟩
      obtain ⟨other, hother, hn⟩ := List.mem_filterMap.mp hmem
      have hvalue := (h.sound other hother).value _ hn
      exact Nat.lt_irrefl _ (List.getElem?_eq_some_iff.mp hvalue).1
    · rw [List.mem_singleton.mp hother]
      refine ⟨fun n hn => ?_, ?_⟩
      · obtain rfl := Option.some.inj (hserial.symm.trans hn)
        exact List.getElem?_concat_length
      · rw [hserial]
        rcases hphase with hphase | ⟨response, hphase, hanswers⟩
        · rw [hphase]
          exact hfresh
        · rw [hphase]
          exact ⟨hfresh, hanswers⟩
    · exact List.mem_singleton_self job
    · obtain ⟨rfl, -⟩ := eq_length_of_concat hvalue hn
      rcases hphase with hphase | ⟨response, hphase, -⟩ <;>
        exact ⟨hserial, by simp only [Job.isFinished, hphase]⟩
  rwa [List.append_nil] at hextend

end Ledger

end AwesomeAgent
