import SmartIDS.Forwarding.WorkerPool
import SmartIDS.ML.DecisionTree
import SmartIDS.PacketCapture.EventIds
import SmartIDS.PacketCapture.TelemetryWindows
import SmartIDS.Python.Datetime
set_option autoImplicit false

/-!
# PacketCapture: the predictions of the secondary model

`completed_flow_predictor.py`, which `live_predictor.py` repeats under another name,
and `SecondaryShadowEventPublisher`.  The processor asks the primary model and submits
the frame; the workers of the two predictors ask the secondary one whenever they come
to it, and write to a collector and a publisher that they share.
-/

namespace SmartIDS.PacketCapture

open SmartIDS.Foundation SmartIDS.Python SmartIDS.Forwarding SmartIDS.ML

/-! ## Shadow events -/

/-- The `context` of a submission. -/
structure ShadowContext where
  sessionKey : String
  srcIp : String
  dstIp : String
  srcPort : Option ℕ
  dstPort : Option ℕ
  protocol : ℕ
  timestamp : Time
  eventType : String
  isFinal : Bool

/-- The event of `__call__`; `secondary` stands under `features`. -/
structure ShadowEvent where
  schemaVersion : String := "1.0"
  eventId : String
  ts : String
  source : String
  sourceIp : String
  destinationIp : String
  sourcePort : Option ℕ
  destinationPort : Option ℕ
  protocol : ℕ
  model : String
  prediction : String
  attackType : String
  confidence : ℚ
  confidenceScore : ℚ
  severity : String
  action : String := "shadow"
  actionTaken : String := "shadow"
  detectionMethod : String
  sessionId : String
  riskScore : ℚ
  isFinal : Bool
  mlPrediction : String
  secondary : BundlePrediction

/-- What the workers write to: the collector, and the events handed to the publisher. -/
structure ShadowSink where
  telemetry : Telemetry := {}
  events : List ShadowEvent := []

/-- `SecondaryShadowEventPublisher`. -/
structure SecondaryShadowEventPublisher where
  /-- Whether `event_publisher` can be called. -/
  publishes : Bool
  alertConfidenceThreshold : ℚ

namespace SecondaryShadowEventPublisher

variable (env : EventIdEnv) (publisher : SecondaryShadowEventPublisher)

/-- `_severity_from_prediction`. -/
def severityFromPrediction (label : String) (confidence : ℚ) : String :=
  if label = "Normal Traffic" then "low"
  else if publisher.alertConfidenceThreshold ≤ confidence then "high"
  else "medium"

/-- The event; a time stamp that no `datetime` has raises. -/
def event (result : BundlePrediction) (context : ShadowContext) : Except PyError ShadowEvent := do
  let ts ← Datetime.fromTimestamp context.timestamp
  return {
    eventId := predictionEventId env context.sessionKey context.eventType result.label
      context.timestamp
    ts := ts.isoformat
    source := context.srcIp
    sourceIp := context.srcIp
    destinationIp := context.dstIp
    sourcePort := context.srcPort
    destinationPort := context.dstPort
    protocol := context.protocol
    model := result.name.modelKey
    prediction := result.label
    attackType := result.label
    confidence := result.confidence
    confidenceScore := result.confidence
    severity := publisher.severityFromPrediction result.label result.confidence
    detectionMethod := context.eventType
    sessionId := context.sessionKey
    riskScore := result.confidence
    isFinal := context.isFinal
    mlPrediction := result.label
    secondary := result }

/-- `__call__`.  What the event publisher raises is caught. -/
def call (now : Time) (result : BundlePrediction) (context : ShadowContext) (sink : ShadowSink) :
    Except PyError Unit × ShadowSink :=
  let sink := { sink with telemetry := sink.telemetry.recordSecondaryModelPrediction now }
  if publisher.publishes then
    match publisher.event env result context with
    | .ok event => (.ok (), { sink with events := sink.events ++ [event] })
    | .error e => (.error e, sink)
  else (.ok (), sink)

end SecondaryShadowEventPublisher

/-! ## The predictor -/

/-- The payload of the secondary publisher. -/
structure SecondaryJob where
  frame : List PyFloat
  context : ShadowContext

/-- A frame has no JSON text; the publisher has no store that would ask for one. -/
def jobCodec : JsonCodec SecondaryJob where
  dumps _ := .error .typeError
  loads _ := .error .jsonDecodeError

/-- What `CompletedFlowPredictor` and `LivePredictor` both are; only their publishers have
names of their own. -/
structure ShadowedPredictor (Obj : Type) where
  publisherName : String
  modelStack : RuntimeModelStack Obj
  secondaryPublisher : Option (BackgroundPublisher SecondaryJob)

namespace ShadowedPredictor

def primaryName : ModelName := ⟨"xgboost", "XGBoost"⟩

def secondaryName : ModelName := ⟨"decision_tree", "DecisionTree"⟩

variable {Obj : Type} (api : ModelApi Obj) (env : EventIdEnv)
  (shadow : SecondaryShadowEventPublisher)

/-- `__init__` with the settings of the environment. -/
def init (publisherName : String) (workerCount queueSize : ℤ)
    (modelStack : RuntimeModelStack Obj) : ShadowedPredictor Obj where
  publisherName := publisherName
  modelStack := modelStack
  secondaryPublisher :=
    if modelStack.secondaryEnabled then some (.init queueSize workerCount none) else none

/-- `_submit_secondary_frame`. -/
def submitSecondaryFrame (job : SecondaryJob) (p : ShadowedPredictor Obj) :
    Bool × ShadowedPredictor Obj :=
  if p.modelStack.secondaryEnabled then
    match p.secondaryPublisher with
    | none => (false, p)
    | some publisher =>
      ((publisher.submit job).1, { p with secondaryPublisher := some (publisher.submit job).2 })
  else (false, p)

/-- What `predict_primary_and_submit_secondary` returns, and what became of the job it
submitted. -/
structure Answer where
  prediction : Except PyError (Option StackPrediction)
  submission : Option (SecondaryJob × Bool)

/-- `predict_primary_and_submit_secondary`. -/
def predictPrimaryAndSubmitSecondary (features : Dict String PyFloat) (context : ShadowContext)
    (p : ShadowedPredictor Obj) : Answer × ShadowedPredictor Obj :=
  if p.modelStack.enabled then
    let frame := buildFrame features
    match p.modelStack.predictPrimaryFromFrame api primaryName frame with
    | .error e => (⟨.error e, none⟩, p)
    | .ok prediction =>
      let job : SecondaryJob := ⟨frame, context⟩
      let (accepted, p) := p.submitSecondaryFrame job
      (⟨.ok (some prediction), some (job, accepted)⟩, p)
  else (⟨.ok none, none⟩, p)

/-- The prediction of the secondary bundle. -/
def secondaryPrediction (stack : RuntimeModelStack Obj) (job : SecondaryJob) :
    Except PyError BundlePrediction :=
  match stack.secondaryBundle with
  | none => .error .other
  | some bundle => bundle.predict api secondaryName job.frame

/-- `_run_secondary_prediction`. -/
def runSecondaryPrediction (stack : RuntimeModelStack Obj) (now : Time) (job : SecondaryJob)
    (sink : ShadowSink) : Published × ShadowSink :=
  match secondaryPrediction api stack job with
  | .error _ => (.raised, sink)
  | .ok result =>
    match shadow.call env now result job.context sink with
    | (.error _, sink) => (.raised, sink)
    | (.ok _, sink) => (.returned true, sink)

/-- The next call of a worker, and the job whose `publish` it is. -/
def work (now : Time) (worker : ℕ) (p : ShadowedPredictor Obj) (sink : ShadowSink) :
    Option SecondaryJob × ShadowedPredictor Obj × ShadowSink :=
  match p.secondaryPublisher with
  | none => (none, p, sink)
  | some publisher =>
    let due := publisher.due worker
    let (published, sink) :=
      match due with
      | none => (.returned true, sink)
      | some job => runSecondaryPrediction api env shadow p.modelStack now job sink
    let publisher := publisher.next jobCodec (.work worker published .working)
    (due, { p with secondaryPublisher := some publisher }, sink)

end ShadowedPredictor

/-- `CompletedFlowPredictor`. -/
def CompletedFlowPredictor {Obj : Type} (workerCount queueSize : ℤ)
    (modelStack : RuntimeModelStack Obj) : ShadowedPredictor Obj :=
  .init "completed-flow-secondary-model" workerCount queueSize modelStack

/-- `LivePredictor`. -/
def LivePredictor {Obj : Type} (workerCount queueSize : ℤ)
    (modelStack : RuntimeModelStack Obj) : ShadowedPredictor Obj :=
  .init "live-secondary-model" workerCount queueSize modelStack

/-! ## The processor and the workers -/

/-- The two predictors of the processor. -/
inductive PredictorKind where
  | live
  | completedFlow
  deriving DecidableEq

/-- The two predictors and what their workers write to. -/
structure ShadowEngine (Obj : Type) where
  predictors : PredictorKind → ShadowedPredictor Obj
  sink : ShadowSink := {}

/-- A question to the primary model. -/
structure Question where
  kind : PredictorKind
  features : Dict String PyFloat
  context : ShadowContext

/-- The processor asks, or a worker makes its next call. -/
inductive ShadowTurn where
  | ask (question : Question)
  | work (kind : PredictorKind) (worker : ℕ) (now : Time)

/-- What a turn shows. -/
inductive ShadowHappening where
  | answered (kind : PredictorKind) (answer : ShadowedPredictor.Answer)
  | worked (kind : PredictorKind) (job : Option SecondaryJob)

namespace ShadowEngine

variable {Obj : Type} (api : ModelApi Obj) (env : EventIdEnv)
  (shadow : SecondaryShadowEventPublisher)

/-- The predictors as the processor makes them. -/
def init (workerCount queueSize : ℤ) (modelStacks : PredictorKind → RuntimeModelStack Obj) :
    ShadowEngine Obj where
  predictors
    | .live => LivePredictor workerCount queueSize (modelStacks .live)
    | .completedFlow => CompletedFlowPredictor workerCount queueSize (modelStacks .completedFlow)

/-- One turn. -/
def next (engine : ShadowEngine Obj) : ShadowTurn → ShadowEngine Obj × ShadowHappening
  | .ask q =>
    let (answer, p) :=
      (engine.predictors q.kind).predictPrimaryAndSubmitSecondary api q.features q.context
    ({ engine with predictors := Function.update engine.predictors q.kind p },
      .answered q.kind answer)
  | .work kind worker now =>
    let (job, p, sink) := (engine.predictors kind).work api env shadow now worker engine.sink
    ({ predictors := Function.update engine.predictors kind p, sink := sink }, .worked kind job)

/-- The processor and the workers, interleaved. -/
def turns : Machine (ShadowEngine Obj) ShadowTurn ShadowHappening where
  step := next api env shadow

end ShadowEngine

/-! ## What is read off a run -/

/-- The questions asked. -/
def questionsOf (ts : List ShadowTurn) : List Question :=
  ts.filterMap fun turn =>
    match turn with
    | .ask question => some question
    | .work _ _ _ => none

namespace ShadowHappening

def prediction? : ShadowHappening → Option (Except PyError (Option StackPrediction))
  | .answered _ answer => some answer.prediction
  | .worked _ _ => none

def submission? (kind : PredictorKind) : ShadowHappening → Option (SecondaryJob × Bool)
  | .answered kind' answer => if kind' = kind then answer.submission else none
  | .worked _ _ => none

def served? : ShadowHappening → Option (PredictorKind × SecondaryJob)
  | .answered _ _ => none
  | .worked kind job => job.map fun job => (kind, job)

end ShadowHappening

/-- The answers, in the order of the questions. -/
def predictionsOf (tr : List ShadowHappening) : List (Except PyError (Option StackPrediction)) :=
  tr.filterMap ShadowHappening.prediction?

/-- What was submitted to the workers of a predictor, and whether their queue had room. -/
def submissionsOf (kind : PredictorKind) (tr : List ShadowHappening) :
    List (SecondaryJob × Bool) :=
  tr.filterMap (ShadowHappening.submission? kind)

/-- The jobs in the order in which the workers came to ask the secondary model. -/
def servedOf (tr : List ShadowHappening) : List (PredictorKind × SecondaryJob) :=
  tr.filterMap ShadowHappening.served?

/-- Those of one predictor. -/
def servedBy (kind : PredictorKind) (tr : List ShadowHappening) : List SecondaryJob :=
  (servedOf tr).filterMap fun served => if served.1 = kind then some served.2 else none

/-- The submissions that had room. -/
def acceptedOf (submissions : List (SecondaryJob × Bool)) : List SecondaryJob :=
  (submissions.filter (·.2)).map (·.1)

namespace ShadowedPredictor

variable {Obj : Type} (api : ModelApi Obj) (env : EventIdEnv)
  (shadow : SecondaryShadowEventPublisher)

/-- The job that a question leads to, if the primary model answers it. -/
def jobOf (stack : RuntimeModelStack Obj) (question : Question) : Option SecondaryJob :=
  match stack.predictPrimary api primaryName question.features with
  | .ok (some _) => some ⟨buildFrame question.features, question.context⟩
  | _ => none

/-- The event a job leads to, if the secondary model answers and the publisher is there. -/
def eventOf (stack : RuntimeModelStack Obj) (job : SecondaryJob) : Option ShadowEvent :=
  match secondaryPrediction api stack job with
  | .error _ => none
  | .ok result => if shadow.publishes then (shadow.event env result job.context).toOption else none

/-- Whether the secondary model answers. -/
def predicted (stack : RuntimeModelStack Obj) (job : SecondaryJob) : Bool :=
  match secondaryPrediction api stack job with
  | .error _ => false
  | .ok _ => true

/-- The jobs of a predictor: refused ones are counted as dropped, and the others are
queued, in hand or served.  Without workers all are refused. -/
def Accounts (submissions : List (SecondaryJob × Bool)) (served : List SecondaryJob)
    (p : ShadowedPredictor Obj) : Prop :=
  match p.secondaryPublisher with
  | none => acceptedOf submissions = [] ∧ served = []
  | some publisher => publisher.Dispatched (acceptedOf submissions) served ∧
      publisher.dropped = (submissions.filter (!·.2)).length

end ShadowedPredictor

/-! ## One turn -/

theorem acceptedOf_append (as bs : List (SecondaryJob × Bool)) :
    acceptedOf (as ++ bs) = acceptedOf as ++ acceptedOf bs := by
  unfold acceptedOf
  rw [List.filter_append, List.map_append]

theorem acceptedOf_singleton (job : SecondaryJob) (accepted : Bool) :
    acceptedOf [(job, accepted)] = if accepted then [job] else [] := by
  cases accepted <;> rfl

namespace ShadowedPredictor

variable {Obj : Type} {api : ModelApi Obj} {env : EventIdEnv}
  {shadow : SecondaryShadowEventPublisher}

/-- What the turns keep of a predictor. -/
structure Kept (modelStack : RuntimeModelStack Obj) (submissions : List (SecondaryJob × Bool))
    (served : List SecondaryJob) (p : ShadowedPredictor Obj) : Prop where
  stack : p.modelStack = modelStack
  wired : p.secondaryPublisher.isSome = modelStack.secondaryEnabled
  accounts : p.Accounts submissions served

theorem kept_init (publisherName : String) (workerCount queueSize : ℤ)
    (modelStack : RuntimeModelStack Obj) :
    Kept modelStack [] [] (init publisherName workerCount queueSize modelStack) := by
  unfold init
  cases henabled : modelStack.secondaryEnabled with
  | false => exact ⟨rfl, henabled.symm, rfl, rfl⟩
  | true => exact ⟨rfl, henabled.symm, BackgroundPublisher.Dispatched.init _ _, rfl⟩

section oneTurn

variable {modelStack : RuntimeModelStack Obj} {submissions : List (SecondaryJob × Bool)}
  {served : List SecondaryJob} {p : ShadowedPredictor Obj}

theorem Kept.submitSecondaryFrame (h : Kept modelStack submissions served p) (job : SecondaryJob) :
    Kept modelStack (submissions ++ [(job, (p.submitSecondaryFrame job).1)]) served
      (p.submitSecondaryFrame job).2 := by
  obtain ⟨publisherName, modelStack', secondaryPublisher⟩ := p
  obtain ⟨hstack, hwired, haccounts⟩ := h
  obtain rfl : modelStack' = modelStack := hstack
  cases secondaryPublisher with
  | none =>
    have hrefused : ShadowedPredictor.submitSecondaryFrame job ⟨publisherName, modelStack', none⟩ =
        (false, ⟨publisherName, modelStack', none⟩) :=
      if_neg (by rw [← hwired]; exact Bool.false_ne_true)
    rw [hrefused]
    refine ⟨rfl, hwired, ?_, haccounts.2⟩
    rw [acceptedOf_append, haccounts.1]
    rfl
  | some publisher =>
    have hsubmitted :
        ShadowedPredictor.submitSecondaryFrame job ⟨publisherName, modelStack', some publisher⟩ =
          ((publisher.submit job).1, ⟨publisherName, modelStack', some (publisher.submit job).2⟩) :=
      if_pos (by rw [← hwired]; rfl)
    rw [hsubmitted]
    refine ⟨rfl, hwired, ?_, ?_⟩
    · rw [acceptedOf_append, acceptedOf_singleton]
      exact haccounts.1.submit job
    · rw [BackgroundPublisher.dropped_submit, haccounts.2, List.filter_append, List.length_append]
      cases (publisher.submit job).1 <;> rfl

variable (api) in
/-- A question is answered as the primary model alone would, and submits the job it
leads to. -/
theorem Kept.predictPrimaryAndSubmitSecondary (h : Kept modelStack submissions served p)
    (q : Question) :
    let (answer, p') := p.predictPrimaryAndSubmitSecondary api q.features q.context
    answer.prediction = modelStack.predictPrimary api primaryName q.features ∧
      answer.submission.map (·.1) = jobOf api modelStack q ∧
      Kept modelStack (submissions ++ answer.submission.toList) served p' := by
  have hsubmit := h.submitSecondaryFrame ⟨buildFrame q.features, q.context⟩
  have hsame : Kept modelStack (submissions ++ []) served p := by rwa [List.append_nil]
  unfold ShadowedPredictor.predictPrimaryAndSubmitSecondary jobOf
    RuntimeModelStack.predictPrimary
  rw [h.stack]
  cases modelStack.enabled with
  | false => exact ⟨rfl, rfl, hsame⟩
  | true =>
    rw [if_pos rfl, if_pos rfl]
    dsimp only
    cases modelStack.predictPrimaryFromFrame api primaryName (buildFrame q.features) with
    | error e => exact ⟨rfl, rfl, hsame⟩
    | ok prediction => exact ⟨rfl, rfl, hsubmit⟩

variable (api env shadow) in
theorem Kept.work (h : Kept modelStack submissions served p) (now : Time) (worker : ℕ)
    (sink : ShadowSink) :
    let (job, p', sink') := p.work api env shadow now worker sink
    Kept modelStack submissions (served ++ job.toList) p' ∧
      sink' = match job with
        | none => sink
        | some job => (runSecondaryPrediction api env shadow modelStack now job sink).2 := by
  have haccounts := h.accounts
  have hwired := h.wired
  unfold ShadowedPredictor.work
  unfold Accounts at haccounts
  rw [h.stack]
  cases hpublisher : p.secondaryPublisher with
  | none =>
    rw [hpublisher] at haccounts
    refine ⟨⟨h.stack, hwired, ?_⟩, rfl⟩
    unfold Accounts
    rw [hpublisher]
    exact ⟨haccounts.1, by rw [haccounts.2]; rfl⟩
  | some publisher =>
    rw [hpublisher] at haccounts hwired
    have hpool := fun outcome => haccounts.1.work jobCodec outcome .working worker
    have hdropped := fun outcome =>
      BackgroundPublisher.dropped_next_work jobCodec outcome .working haccounts.1.store worker
    dsimp only
    cases hdue : publisher.due worker with
    | none =>
      rw [hdue] at hpool
      exact ⟨⟨rfl, hwired, hpool _, (hdropped _).trans haccounts.2⟩, rfl⟩
    | some job =>
      rw [hdue] at hpool
      exact ⟨⟨rfl, hwired, hpool _, (hdropped _).trans haccounts.2⟩, rfl⟩

end oneTurn

theorem events_runSecondaryPrediction (modelStack : RuntimeModelStack Obj) (now : Time)
    (job : SecondaryJob) (sink : ShadowSink) :
    (runSecondaryPrediction api env shadow modelStack now job sink).2.events =
      sink.events ++ (eventOf api env shadow modelStack job).toList := by
  unfold runSecondaryPrediction eventOf SecondaryShadowEventPublisher.call
  cases secondaryPrediction api modelStack job with
  | error e => exact (List.append_nil _).symm
  | ok result =>
    dsimp only
    cases shadow.publishes with
    | false => exact (List.append_nil _).symm
    | true =>
      rw [if_pos rfl, if_pos rfl]
      cases shadow.event env result job.context with
      | error e => exact (List.append_nil _).symm
      | ok event => rfl

theorem total_runSecondaryPrediction (modelStack : RuntimeModelStack Obj) (now : Time)
    (job : SecondaryJob) (sink : ShadowSink) :
    (runSecondaryPrediction api env shadow modelStack now job
        sink).2.telemetry.secondaryModelPredictionsTotal =
      sink.telemetry.secondaryModelPredictionsTotal +
        if predicted api modelStack job then 1 else 0 := by
  unfold runSecondaryPrediction predicted SecondaryShadowEventPublisher.call
  cases secondaryPrediction api modelStack job with
  | error e => rfl
  | ok result =>
    dsimp only
    cases shadow.publishes with
    | false => rfl
    | true =>
      rw [if_pos rfl]
      cases shadow.event env result job.context <;> rfl

end ShadowedPredictor

/-! ## Runs -/

section runs

variable {Obj : Type} (api : ModelApi Obj) (env : EventIdEnv)
  (shadow : SecondaryShadowEventPublisher) (modelStacks : PredictorKind → RuntimeModelStack Obj)

/-- What is known after some turns. -/
structure ShadowBooks (ts : List ShadowTurn) (tr : List ShadowHappening)
    (engine : ShadowEngine Obj) : Prop where
  predictions : predictionsOf tr = (questionsOf ts).map fun q =>
    (modelStacks q.kind).predictPrimary api ShadowedPredictor.primaryName q.features
  submitted : ∀ kind, (submissionsOf kind tr).map (·.1) =
    ((questionsOf ts).filter (·.kind = kind)).filterMap
      (ShadowedPredictor.jobOf api (modelStacks kind))
  kept : ∀ kind, ShadowedPredictor.Kept (modelStacks kind) (submissionsOf kind tr)
    (servedBy kind tr) (engine.predictors kind)
  events : engine.sink.events = (servedOf tr).filterMap fun served =>
    ShadowedPredictor.eventOf api env shadow (modelStacks served.1) served.2
  total : engine.sink.telemetry.secondaryModelPredictionsTotal =
    (servedOf tr).countP fun served =>
      ShadowedPredictor.predicted api (modelStacks served.1) served.2

variable {api env shadow modelStacks} {ts : List ShadowTurn} {tr : List ShadowHappening}
  {engine : ShadowEngine Obj}

theorem submissionsOf_concat (kind : PredictorKind) (e : ShadowHappening) :
    submissionsOf kind (tr ++ [e]) = submissionsOf kind tr ++ (e.submission? kind).toList := by
  unfold submissionsOf
  rw [List.filterMap_append]
  cases hsubmission : e.submission? kind <;> simp [hsubmission]

theorem servedOf_concat (e : ShadowHappening) :
    servedOf (tr ++ [e]) = servedOf tr ++ e.served?.toList := by
  unfold servedOf
  rw [List.filterMap_append]
  cases hserved : e.served? <;> simp [hserved]

theorem ShadowBooks.ask (h : ShadowBooks api env shadow modelStacks ts tr engine) (q : Question) :
    ShadowBooks api env shadow modelStacks (ts ++ [.ask q])
      (tr ++ [(engine.next api env shadow (.ask q)).2])
      (engine.next api env shadow (.ask q)).1 := by
  have hanswered := (h.kept q.kind).predictPrimaryAndSubmitSecondary api q
  unfold ShadowEngine.next
  dsimp only
  generalize (engine.predictors q.kind).predictPrimaryAndSubmitSecondary api q.features
    q.context = answered at hanswered
  obtain ⟨answer, p⟩ := answered
  obtain ⟨hprediction, hsubmission, hkept⟩ := hanswered
  have hquestions : questionsOf (ts ++ [.ask q]) = questionsOf ts ++ [q] := by
    unfold questionsOf
    rw [List.filterMap_append]
    rfl
  have hserved : servedOf (tr ++ [.answered q.kind answer]) = servedOf tr :=
    (servedOf_concat _).trans (List.append_nil _)
  have hservedBy : ∀ kind, servedBy kind (tr ++ [.answered q.kind answer]) = servedBy kind tr := by
    intro kind
    unfold servedBy
    rw [hserved]
  have hsubmissions : ∀ kind, submissionsOf kind (tr ++ [.answered q.kind answer]) =
      submissionsOf kind tr ++ if q.kind = kind then answer.submission.toList else [] := by
    intro kind
    rw [submissionsOf_concat]
    show _ ++ (if q.kind = kind then answer.submission else none).toList = _
    split_ifs <;> rfl
  constructor
  · have hanswer : predictionsOf (tr ++ [.answered q.kind answer]) =
        predictionsOf tr ++ [answer.prediction] := by
      unfold predictionsOf
      rw [List.filterMap_append]
      rfl
    rw [hanswer, h.predictions, hprediction, hquestions, List.map_append]
    rfl
  · intro kind
    rw [hsubmissions, List.map_append, h.submitted, hquestions, List.filter_append,
      List.filterMap_append]
    congr 1
    by_cases hkind : q.kind = kind
    · subst hkind
      rw [if_pos rfl, ← Option.toList_map, hsubmission, List.filter_cons_of_pos (by simp)]
      cases hjob : ShadowedPredictor.jobOf api (modelStacks q.kind) q <;> simp [hjob]
    · rw [if_neg hkind, List.filter_cons_of_neg (by simpa using hkind)]
      rfl
  · intro kind
    rw [hsubmissions, hservedBy]
    by_cases hkind : q.kind = kind
    · subst hkind
      rw [if_pos rfl]
      dsimp only
      rw [Function.update_self]
      exact hkept
    · rw [if_neg hkind, List.append_nil]
      dsimp only
      rw [Function.update_of_ne (Ne.symm hkind)]
      exact h.kept kind
  · rw [hserved]
    exact h.events
  · rw [hserved]
    exact h.total

theorem ShadowBooks.work (h : ShadowBooks api env shadow modelStacks ts tr engine)
    (kind : PredictorKind) (worker : ℕ) (now : Time) :
    ShadowBooks api env shadow modelStacks (ts ++ [.work kind worker now])
      (tr ++ [(engine.next api env shadow (.work kind worker now)).2])
      (engine.next api env shadow (.work kind worker now)).1 := by
  have hworked := (h.kept kind).work api env shadow now worker engine.sink
  unfold ShadowEngine.next
  dsimp only
  generalize (engine.predictors kind).work api env shadow now worker engine.sink = worked
    at hworked
  obtain ⟨job, p, sink⟩ := worked
  obtain ⟨hkept, hsink⟩ := hworked
  have hquestions : questionsOf (ts ++ [.work kind worker now]) = questionsOf ts := by
    unfold questionsOf
    rw [List.filterMap_append]
    exact List.append_nil _
  have hserved : servedOf (tr ++ [.worked kind job]) =
      servedOf tr ++ (job.map fun job => (kind, job)).toList := servedOf_concat _
  have hservedBy : ∀ kind', servedBy kind' (tr ++ [.worked kind job]) =
      servedBy kind' tr ++ if kind = kind' then job.toList else [] := by
    intro kind'
    unfold servedBy
    rw [hserved, List.filterMap_append]
    cases job <;> split_ifs with hkind <;> simp [hkind]
  have hsubmissions : ∀ kind', submissionsOf kind' (tr ++ [.worked kind job]) =
      submissionsOf kind' tr := fun kind' => (submissionsOf_concat _ _).trans (List.append_nil _)
  constructor
  · have hanswer : predictionsOf (tr ++ [.worked kind job]) = predictionsOf tr := by
      unfold predictionsOf
      rw [List.filterMap_append]
      exact List.append_nil _
    rw [hanswer, hquestions, h.predictions]
  · intro kind'
    rw [hsubmissions, hquestions]
    exact h.submitted kind'
  · intro kind'
    rw [hsubmissions, hservedBy]
    by_cases hkind : kind = kind'
    · subst hkind
      rw [if_pos rfl]
      dsimp only
      rw [Function.update_self]
      exact hkept
    · rw [if_neg hkind, List.append_nil]
      dsimp only
      rw [Function.update_of_ne (Ne.symm hkind)]
      exact h.kept kind'
  · rw [hserved, List.filterMap_append, ← h.events, hsink]
    cases job with
    | none => exact (List.append_nil _).symm
    | some job =>
      refine (ShadowedPredictor.events_runSecondaryPrediction _ _ _ _).trans ?_
      congr 1
  · rw [hserved, List.countP_append, ← h.total, hsink]
    cases job with
    | none => rfl
    | some job =>
      refine (ShadowedPredictor.total_runSecondaryPrediction _ _ _ _).trans ?_
      rw [Option.map_some, Option.toList_some, List.countP_singleton]

theorem kept_predictors (workerCount queueSize : ℤ) (kind : PredictorKind) :
    ShadowedPredictor.Kept (modelStacks kind) [] []
      ((ShadowEngine.init workerCount queueSize modelStacks).predictors kind) := by
  cases kind with
  | live => exact ShadowedPredictor.kept_init _ workerCount queueSize _
  | completedFlow => exact ShadowedPredictor.kept_init _ workerCount queueSize _

variable (api env shadow modelStacks) in
theorem shadowBooks_init (workerCount queueSize : ℤ) :
    ShadowBooks api env shadow modelStacks [] [] (.init workerCount queueSize modelStacks) :=
  ⟨rfl, fun _ => rfl, fun kind => kept_predictors workerCount queueSize kind, rfl, rfl⟩

variable (api env shadow modelStacks) in
theorem shadowBooks_exec (workerCount queueSize : ℤ) (ts : List ShadowTurn) :
    ShadowBooks api env shadow modelStacks ts
      ((ShadowEngine.turns api env shadow).trace (.init workerCount queueSize modelStacks) ts)
      ((ShadowEngine.turns api env shadow).exec (.init workerCount queueSize modelStacks) ts) := by
  induction ts using List.reverseRecOn with
  | nil => exact shadowBooks_init api env shadow modelStacks workerCount queueSize
  | append_singleton ts turn ih =>
    rw [Machine.trace_concat, Machine.exec_concat]
    cases turn with
    | ask q => exact ih.ask q
    | work kind worker now => exact ih.work kind worker now

end runs

/-- In every interleaving of the processor and the workers of its two predictors: a
question is answered as the primary model alone would answer it, whatever the workers
have done, and submits one job if it was answered; a job is refused and counted as
dropped, or is queued, in the hand of a worker, or served, and is served once; and the
events published, and the predictions counted, are those of the jobs served. -/
theorem shadow_predictions {Obj : Type} (api : ModelApi Obj) (env : EventIdEnv)
    (shadow : SecondaryShadowEventPublisher) (modelStacks : PredictorKind → RuntimeModelStack Obj)
    (workerCount queueSize : ℤ) (ts : List ShadowTurn) :
    let start := ShadowEngine.init workerCount queueSize modelStacks
    let engine := (ShadowEngine.turns api env shadow).exec start ts
    let tr := (ShadowEngine.turns api env shadow).trace start ts
    predictionsOf tr = (questionsOf ts).map (fun q =>
        (modelStacks q.kind).predictPrimary api ShadowedPredictor.primaryName q.features) ∧
      (∀ kind, (submissionsOf kind tr).map (·.1) =
          ((questionsOf ts).filter (·.kind = kind)).filterMap
            (ShadowedPredictor.jobOf api (modelStacks kind)) ∧
        (engine.predictors kind).Accounts (submissionsOf kind tr) (servedBy kind tr)) ∧
      engine.sink.events = (servedOf tr).filterMap (fun served =>
        ShadowedPredictor.eventOf api env shadow (modelStacks served.1) served.2) ∧
      engine.sink.telemetry.secondaryModelPredictionsTotal =
        (servedOf tr).countP fun served =>
          ShadowedPredictor.predicted api (modelStacks served.1) served.2 := by
  have h := shadowBooks_exec api env shadow modelStacks workerCount queueSize ts
  exact ⟨h.predictions, fun kind => ⟨h.submitted kind, (h.kept kind).accounts⟩, h.events, h.total⟩

end SmartIDS.PacketCapture
