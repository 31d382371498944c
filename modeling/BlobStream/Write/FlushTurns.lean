import BlobStream.Write.FlushTask

/-!
# What one step of a flush task can do

`Turn` lists, for every phase and input, the phase a flush task goes over to, what it adds to the
storage log and what it does to its broker. `step_took` shows that nothing else happens.
-/

namespace BlobStream.Write.FlushTask

def aborted (plan : FlushPlan) : FlushPhase :=
  .completing plan.publicationCompletions { partitionResults := [] }

section Turns

variable (codec : Codec) (config : SegmentConfig) (plan : FlushPlan)

/-- One turn of the task of a plan: phase, input, next phase, logged events and effect. -/
inductive Turn : FlushPhase → FlushInput → FlushPhase → List StorageEvent → Option FlushEffect → Prop
  | barrierFailed {topicPlan partition rest encoded failed error} :
      Turn (.building ((topicPlan, partition) :: rest) encoded failed) (.identity (some error))
        (.building rest encoded
          (failed ++ [⟨topicPlan.topic, partition.virtualPartitionId, some error⟩])) [] none
  | encoded {topicPlan partition rest encoded failed section_}
      (ok : encodePartition codec config topicPlan partition = .ok section_) :
      Turn (.building ((topicPlan, partition) :: rest) encoded failed)
        (.identity none) (.building rest (encoded ++ [section_]) failed) [] none
  | encodeFailed {pair rest encoded failed} :
      Turn (.building (pair :: rest) encoded failed) (.identity none)
        (.failing plan.publicationCompletions) [] none
  | packed {encoded failed builders}
      (built : objectBuilders encoded plan.maxSegmentBytes = some builders) :
      Turn (.building [] encoded failed) .proceed (.identifying builders [] failed) [] none
  | identified {builder rest objects failed snowflakeId now} :
      Turn (.identifying (builder :: rest) objects failed) (.segmentId (some (snowflakeId, now)))
        (.identifying rest (objects ++ [builder.finish config snowflakeId now]) failed) [] none
  | identityFailed {builder rest objects failed} :
      Turn (.identifying (builder :: rest) objects failed) (.segmentId none)
        (.failing plan.publicationCompletions) [] none
  | allIdentified {objects failed} :
      Turn (.identifying [] objects failed) .proceed
        (.signalling plan.publicationCompletions objects failed) [] none
  | signalled {completion rest objects failed} :
      Turn (.signalling (completion :: rest) objects failed) .signal
        (.signalling rest objects failed) []
        (some (.signal completion.state (identityState failed completion)))
  | allSignalled {objects failed} :
      Turn (.signalling [] objects failed) .proceed (.registering objects [] failed) [] none
  | failureSignalled {completion rest} :
      Turn (.failing (completion :: rest)) .signal (.failing rest) []
        (some (.signal completion.state (.completed (.failed .internal))))
  | allFailed : Turn (.failing []) .proceed (aborted plan) [] none
  | registerAborted {object rest uploads results deadlinePassed} :
      Turn (.registering (object :: rest) uploads results)
        (.register deadlinePassed) (aborted plan) [] none
  | registerLate {object rest uploads results} :
      Turn (.registering (object :: rest) uploads results) (.register true)
        (.registering rest uploads (results ++ failureResults object.topics .internal)) [] none
  | registered {object rest uploads results} :
      Turn (.registering (object :: rest) uploads results) (.register false)
        (.registering rest (uploads ++ [object]) results) [] none
  | allRegistered {uploads results} :
      Turn (.registering [] uploads results) .proceed (.uploading uploads [] results) [] none
  | uploaded {uploads uploaded results position object} (found : uploads[position]? = some object) :
      Turn (.uploading uploads uploaded results) (.upload position true)
        (.uploading (uploads.eraseIdx position) (uploaded ++ [object]) results)
        [.put object.blobKey object.payload] none
  | uploadFailed {uploads uploaded results position object}
      (found : uploads[position]? = some object) :
      Turn (.uploading uploads uploaded results) (.upload position false)
        (.uploading (uploads.eraseIdx position) uploaded
          (results ++ failureResults object.topics .internal)) [] none
  | allUploaded {uploaded results} :
      Turn (.uploading [] uploaded results) .proceed
        (.publishing (uploaded.flatMap fun object => object.topics.map PersistedTopic.publication)
          results) [] none
  | predecessorEnded {publications results position publication virtualPartitionId partition}
      (found : publications[position]? = some publication)
      (waits : publication.waiting.lookup virtualPartitionId = some partition) :
      Turn (.publishing publications results) (.predecessor position virtualPartitionId none)
        (.publishing
          (publications.set position
            { publication with
              waiting := publication.waiting.filter fun entry => entry.1 ≠ virtualPartitionId
              ready := publication.ready ++ [(virtualPartitionId, partition)] }) results) [] none
  | predecessorFailed {publications results position publication virtualPartitionId partition error}
      (found : publications[position]? = some publication)
      (waits : publication.waiting.lookup virtualPartitionId = some partition) :
      Turn (.publishing publications results)
        (.predecessor position virtualPartitionId (some error))
        (.publishing
          (publications.set position
            { publication with
              waiting := publication.waiting.filter fun entry => entry.1 ≠ virtualPartitionId })
          (results ++ [⟨publication.envelope.window.topic, virtualPartitionId, some error⟩])) [] none
  | nothingReady {publications results position publication attempt}
      (found : publications[position]? = some publication) :
      Turn (.publishing publications results) (.publish position attempt)
        (.publishing (publications.eraseIdx position) results) [] none
  | publishAborted {publications results position attempt} :
      Turn (.publishing publications results) (.publish position attempt) (aborted plan) [] none
  | written {publications results position publication publishedAt}
      (found : publications[position]? = some publication) :
      Turn (.publishing publications results) (.publish position (.written publishedAt))
        (.publishing (publications.eraseIdx position) (results ++ readyResults publication none))
        [publicationRow publication publishedAt] none
  | notWritten {publications results position publication attempt error}
      (found : publications[position]? = some publication) :
      Turn (.publishing publications results) (.publish position attempt)
        (.publishing (publications.eraseIdx position)
          (results ++ readyResults publication (some error))) [] none
  | allPublished {results} :
      Turn (.publishing [] results) .proceed
        (.completing plan.publicationCompletions { partitionResults := sortResults results }) [] none
  | completed {completion rest outcome} :
      Turn (.completing (completion :: rest) outcome) .complete (.completing rest outcome) []
        (some (.completeFlush ⟨completion.topic, completion.virtualPartitionId⟩ completion.state
          (partitionResultError outcome.partitionResults completion.topic
            completion.virtualPartitionId outcome.fallbackError)))
  | notified {outcome} :
      Turn (.completing [] outcome) .proceed .done [] none

end Turns

section Steps

variable {codec : Codec} {config : SegmentConfig} {task next : FlushTask} {input : FlushInput}
variable {effect : Option FlushEffect}

/-- The step is a turn of the task's plan; only the last turn tells the waiters. -/
structure Took (codec : Codec) (config : SegmentConfig) (task : FlushTask) (input : FlushInput)
    (next : FlushTask) (effect : Option FlushEffect) : Prop where
  plan : next.plan = task.plan
  turn : ∃ added, next.log = task.log ++ added
    ∧ Turn codec config task.plan task.phase input next.phase added effect
  resolved : (next.phase ≠ .done ∧ next.resolved = task.resolved)
    ∨ ∃ outcome, task.phase = .completing [] outcome ∧ next.phase = .done
      ∧ next.resolved = task.notify outcome

theorem took_enter {phase : FlushPhase}
    (turn : Turn codec config task.plan task.phase input phase [] effect)
    (unfinished : phase ≠ .done := by simp [aborted]) :
    Took codec config task input (task.enter phase) effect where
  plan := rfl
  turn := ⟨[], (List.append_nil _).symm, turn⟩
  resolved := Or.inl ⟨unfinished, rfl⟩

variable {error : Option FlushCompletionError}

theorem took_identity (stepped : task.identity codec config error = some next) :
    Took codec config task (.identity error) next none := by
  unfold FlushTask.identity at stepped
  split at stepped
  next phase =>
    split at stepped
    · cases stepped
      refine took_enter ?_
      rw [phase]
      exact .barrierFailed
    · split at stepped
      · cases stepped
        refine took_enter ?_
        rw [phase]
        exact .encodeFailed
      next ok =>
        cases stepped
        refine took_enter ?_
        rw [phase]
        exact .encoded ok
  next => cases stepped

theorem took_segmentId {generated : Option (SnowflakeId × Int)}
    (stepped : task.segmentId config generated = some next) :
    Took codec config task (.segmentId generated) next none := by
  unfold FlushTask.segmentId at stepped
  split at stepped
  next phase =>
    split at stepped <;> cases stepped <;> refine took_enter ?_ <;> rw [phase]
    · exact .identityFailed
    · exact .identified
  next => cases stepped

theorem took_signal {sent : FlushEffect} (stepped : task.signal = some (next, sent)) :
    Took codec config task .signal next (some sent) := by
  unfold FlushTask.signal at stepped
  split at stepped
  next phase =>
    cases stepped
    refine took_enter ?_
    rw [phase]
    exact .signalled
  next phase =>
    cases stepped
    refine took_enter ?_
    rw [phase]
    exact .failureSignalled
  next => cases stepped

theorem took_register {deadlinePassed : Bool} (stepped : task.register deadlinePassed = some next) :
    Took codec config task (.register deadlinePassed) next none := by
  unfold FlushTask.register at stepped
  split at stepped
  next phase =>
    split at stepped
    · cases stepped
      refine took_enter ?_
      rw [phase]
      exact .registerAborted
    · split at stepped
      next late =>
        cases stepped
        refine took_enter ?_
        rw [phase, late]
        exact .registerLate
      next inTime =>
        cases stepped
        refine took_enter ?_
        rw [phase, Bool.eq_false_of_not_eq_true inTime]
        exact .registered
  next => cases stepped

variable {position : Nat}

theorem took_upload {succeeded : Bool} (stepped : task.upload position succeeded = some next) :
    Took codec config task (.upload position succeeded) next none := by
  unfold FlushTask.upload at stepped
  split at stepped
  next phase =>
    split at stepped
    · cases stepped
    next found =>
      split at stepped
      next stored =>
        cases stepped
        refine ⟨rfl, ⟨_, rfl, ?_⟩, Or.inl ⟨by simp, rfl⟩⟩
        rw [phase, stored]
        exact .uploaded found
      next lost =>
        cases stepped
        refine took_enter ?_
        rw [phase, Bool.eq_false_of_not_eq_true lost]
        exact .uploadFailed found
  next => cases stepped

theorem took_predecessor {virtualPartitionId : VirtualPartitionId}
    (stepped : task.predecessor position virtualPartitionId error = some next) :
    Took codec config task (.predecessor position virtualPartitionId error) next none := by
  unfold FlushTask.predecessor at stepped
  split at stepped
  next phase =>
    split at stepped
    · cases stepped
    next found =>
      split at stepped
      · cases stepped
      next waits =>
        split at stepped <;> cases stepped <;> refine took_enter ?_ <;> rw [phase]
        · exact .predecessorEnded found waits
        · exact .predecessorFailed found waits
  next => cases stepped

theorem took_publish {attempt : PublishAttempt}
    (stepped : task.publish position attempt = some next) :
    Took codec config task (.publish position attempt) next none := by
  unfold FlushTask.publish at stepped
  split at stepped
  next publications results phase =>
    have enters {later : FlushPhase} (turn : Turn codec config task.plan
        (.publishing publications results) (.publish position attempt) later [] none) :
        Took codec config task (.publish position attempt) (task.enter later) none := by
      refine took_enter (phase ▸ turn) ?_
      rintro rfl
      cases turn
    split at stepped
    · cases stepped
    next publication found =>
      simp only at stepped
      split at stepped
      · cases stepped
      · split at stepped
        · cases stepped
          exact enters (.nothingReady found)
        · split at stepped
          · cases stepped
            exact enters .publishAborted
          · split at stepped
            · cases stepped
              exact enters .publishAborted
            · split at stepped
              · cases stepped
                refine ⟨rfl, ⟨_, rfl, ?_⟩, Or.inl ⟨by simp [enter], rfl⟩⟩
                rw [phase]
                exact .written found
              · cases stepped
                exact enters (.notWritten found)
              · cases stepped
                exact enters (.notWritten found)
  next => cases stepped

theorem took_complete {sent : FlushEffect} (stepped : task.complete = some (next, sent)) :
    Took codec config task .complete next (some sent) := by
  unfold FlushTask.complete at stepped
  split at stepped
  next phase =>
    cases stepped
    refine took_enter ?_
    rw [phase]
    exact .completed
  next => cases stepped

theorem took_proceed (stepped : task.proceed = some next) :
    Took codec config task .proceed next none := by
  unfold FlushTask.proceed at stepped
  split at stepped
  next phase =>
    obtain ⟨builders, built, rfl⟩ := Option.map_eq_some_iff.mp stepped
    refine took_enter ?_
    rw [phase]
    exact .packed built
  next phase =>
    cases stepped
    exact took_enter (phase ▸ .allIdentified)
  next phase =>
    cases stepped
    exact took_enter (phase ▸ .allSignalled)
  next phase =>
    cases stepped
    exact took_enter (phase ▸ .allFailed)
  next phase =>
    cases stepped
    exact took_enter (phase ▸ .allRegistered)
  next phase =>
    cases stepped
    exact took_enter (phase ▸ .allUploaded)
  next phase =>
    cases stepped
    exact took_enter (phase ▸ .allPublished)
  next phase =>
    cases stepped
    exact ⟨rfl, ⟨[], (List.append_nil _).symm, phase ▸ .notified⟩, Or.inr ⟨_, phase, rfl, rfl⟩⟩
  next => cases stepped

theorem step_took (stepped : task.step codec config input = some (next, effect)) :
    Took codec config task input next effect := by
  cases input <;>
    simp only [FlushTask.step, Option.map_eq_some_iff, Prod.mk.injEq] at stepped <;>
    obtain ⟨_, moved, rfl, rfl⟩ := stepped
  case identity => exact took_identity moved
  case segmentId => exact took_segmentId moved
  case signal => exact took_signal moved
  case register => exact took_register moved
  case upload => exact took_upload moved
  case predecessor => exact took_predecessor moved
  case publish => exact took_publish moved
  case complete => exact took_complete moved
  case proceed => exact took_proceed moved

end Steps

end BlobStream.Write.FlushTask
