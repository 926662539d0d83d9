/-
  File:      Anjay/Observe/Update.lean
  Subject:   When a new value of an observation is inserted (`update_notification_value`), and for when its trigger
             is scheduled (`schedule_trigger`).

  * `updateLoop`: the loop over the paths: the batches, whether to notify, the shortest pmax and `con`.
  * `updateNotificationValue`: the value that it inserts has the record of the newest one, which it passes by reference.
-/
import Anjay.Dm.Attributes
import Anjay.Observe.Insert

namespace Anjay

/-- `x <= y` of two `double`s. -/
def Double.le (x y : Double) : Bool := !x.isNaN && !y.isNaN && decide (x.toInt ≤ y.toInt)

end Anjay

namespace Anjay.Observe

open AttrStorage Dm

variable {β : Type}

/-! ## 1. Attributes and values -/

/-- What the observe module asks of batches; `distanceAtLeast step old new` is `fabs(new - old) >= step`. -/
structure BatchOps (β : Type) where
  valuesEqual : β → β → Bool
  numericValue : β → Double
  compilationTime : β → Duration
  distanceAtLeast : Double → Double → Double → Bool

/-- `is_pmax_valid`. -/
def isPmaxValid (attr : OiAttributes) : Bool :=
  if attr.maxPeriod.toInt < 0 then false
  else !(decide (attr.maxPeriod.toInt = 0) || decide (attr.maxPeriod.toInt < attr.minPeriod.toInt))

/-- `update_batch_pmax`. -/
def updateBatchPmax (out : Int) (attrs : InternalRAttrs) : Int :=
  if isPmaxValid attrs.standard.common && (decide (out < 0) || decide (attrs.standard.common.maxPeriod.toInt < out)) then
    attrs.standard.common.maxPeriod.toInt
  else out

/-- `has_pmax_expired`. -/
def hasPmaxExpired (now : Duration) (value : Value β) (attrs : OiAttributes) : Bool :=
  isPmaxValid attrs && decide (attrs.maxPeriod.toInt ≤ (now.diff value.timestamp).seconds)

/-- `has_epmin_expired`. -/
def hasEpminExpired (ops : BatchOps β) (now : Duration) (element : β) (attrs : OiAttributes) : Bool :=
  attrs.minEvalPeriod == periodNone ||
    decide (attrs.minEvalPeriod.toInt ≤ (now.diff (ops.compilationTime element)).seconds)

/-- `process_step`. -/
def processStep (ops : BatchOps β) (attrs : RAttributes) (previous new : Double) : Bool :=
  !attrs.step.isNaN && ops.distanceAtLeast attrs.step previous new

/-- `process_ltgt`. -/
def processLtgt (threshold previous new : Double) : Bool :=
  !threshold.isNaN && ((previous.le threshold && threshold.lt new) || (threshold.le previous && new.lt threshold))

/-- `should_update`. -/
def shouldUpdate (ops : BatchOps β) (path : UriPath) (attrs : RAttributes) (previous new : β) : Bool :=
  if ops.valuesEqual previous new then false
  else
    let previousNumeric := if path.has .rid then ops.numericValue previous else Double.nan
    let newNumeric := if path.has .rid then ops.numericValue new else Double.nan
    if newNumeric.isNaN || previousNumeric.isNaN ||
        (attrs.greaterThan.isNaN && attrs.lessThan.isNaN && attrs.step.isNaN) then true
    else processStep ops attrs previousNumeric newNumeric ||
      processLtgt attrs.lessThan previousNumeric newNumeric ||
      processLtgt attrs.greaterThan previousNumeric newNumeric

/-! ## 2. Scheduling a trigger -/

/-- The clocks, and whether a job can be scheduled. -/
structure ScheduleEnv where
  monotonicNow : Duration
  realNow : Duration
  scheduled : Bool

/-- The instant that `schedule_trigger` computes. -/
def triggerInstant (env : ScheduleEnv) (newest : Duration) (period : Int) : Duration :=
  let instant := env.monotonicNow.add ((newest.diff env.realNow).add (.fromSeconds period))
  if instant.less env.monotonicNow then env.monotonicNow else instant

/-- `schedule_trigger`, given the time stamp of the newest value. -/
def scheduleTrigger (env : ScheduleEnv) (newest : Duration) (period : Int) (o : Observation β) : Int × Observation β :=
  if period < 0 then (0, o)
  else if (o.notifyTask.getD .invalid).less (triggerInstant env newest period) then (0, o)
  else if env.scheduled then (0, { o with notifyTask := some (triggerInstant env newest period) })
  else (-1, o)

/-- `schedule_trigger` on an observation of the state. -/
def State.scheduleTrigger (env : ScheduleEnv) (newest : Duration) (period : Int) (ref : ConnectionRef)
    (observation : Nat) (s : State β) : State β :=
  s.modify ref (ConnectionEntry.updateObservation observation fun o => (Observe.scheduleTrigger env newest period o).2)

/-- The loop of `_anjay_observe_schedule_pmax_trigger`. -/
def pmaxLoop : Int → List (Except Failure InternalRAttrs) → Except Failure Int
  | pmax, [] => .ok pmax
  | _, .error e :: _ => .error e
  | pmax, .ok attrs :: rest => pmaxLoop (updateBatchPmax pmax attrs) rest

/-- `_anjay_observe_schedule_pmax_trigger`, with the results of `get_effective_attrs` for the paths. -/
def schedulePmaxTrigger (env : ScheduleEnv) (attrs : List (Except Failure InternalRAttrs)) (newest : Duration)
    (o : Observation β) : Int × Observation β :=
  match pmaxLoop (-1) attrs with
  | .error e => (e.val, o)
  | .ok pmax => if 0 ≤ pmax then scheduleTrigger env newest pmax o else (0, o)

/-! ## 3. Updating the value of an observation -/

/-- What the data model answers for a path: its attributes, the times at which epmin and pmax are looked at, and what
    reading it gives. -/
structure PathEnv (β : Type) where
  attrs : Except Failure InternalRAttrs
  epminNow : Duration
  read : Except Failure β
  pmaxNow : Duration

/-- The variables of the loop of `update_notification_value`. -/
structure UpdateVars (β : Type) where
  batches : List β
  shouldUpdateBatch : Bool
  pmax : Int
  con : Int

/-- The batch of a path: a new one, or the previous value while epmin has not expired. -/
def pathBatch (ops : BatchOps β) (env : PathEnv β) (attrs : InternalRAttrs) (previous : β) : Except Failure β :=
  if hasEpminExpired ops env.epminNow previous attrs.standard.common then env.read else .ok previous

/-- The end of an iteration of the loop. -/
def UpdateVars.next (ops : BatchOps β) (env : PathEnv β) (newest : Value β) (path : UriPath) (attrs : InternalRAttrs)
    (previous batch : β) (vars : UpdateVars β) : UpdateVars β where
  batches := vars.batches ++ [batch]
  shouldUpdateBatch := vars.shouldUpdateBatch || (hasPmaxExpired env.pmaxNow newest attrs.standard.common ||
    shouldUpdate ops path attrs.standard previous batch)
  pmax := updateBatchPmax vars.pmax attrs
  con := max vars.con attrs.con.toInt

/-- The loop of `update_notification_value`, from the path `i` on, each path with what the newest value has for it. -/
def updateLoop (ops : BatchOps β) (env : Nat → PathEnv β) (newest : Value β) :
    Nat → UpdateVars β → List (UriPath × β) → Except Failure (UpdateVars β)
  | _, vars, [] => .ok vars
  | i, vars, (path, previous) :: rest =>
      match (env i).attrs with
      | .error e => .error e
      | .ok attrs =>
          match pathBatch ops (env i) attrs previous with
          | .error e => .error e
          | .ok batch =>
              updateLoop ops env newest (i + 1) (vars.next ops (env i) newest path attrs previous batch) rest

/-- What the environment decides about `update_notification_value`. -/
structure UpdateEnv (β : Type) where
  batchesAllocated : Bool
  path : Nat → PathEnv β
  insert : InsertEnv
  schedule : ScheduleEnv

/-- The variables before the loop. -/
def updateStart : UpdateVars β := ⟨[], false, -1, ConAttr.default.toInt⟩

/-- The reliability hint of a new value. -/
def reliabilityHint (confirmableNotifications : Bool) (con : Int) : ReliabilityHint :=
  if 0 < (if con < 0 ∧ confirmableNotifications = true then ConAttr.con.toInt else con) then .preferConfirmable
  else .preferNonConfirmable

/-- The part of `update_notification_value` after the loop, up to the trigger. -/
def insertUpdate (env : UpdateEnv β) (ref : ConnectionRef) (observation : Nat) (newest : Value β) (vars : UpdateVars β)
    (s : State β) : Int × State β :=
  if vars.shouldUpdateBatch then
    insertNewValue env.insert ref observation (reliabilityHint s.confirmableNotifications vars.con)
      (.ofValue newest.addr) vars.batches s
  else (0, s)

/-- The time stamp of the newest value of an observation, once more. -/
def State.newestTimestamp (ref : ConnectionRef) (observation : Nat) (s : State β) : Option Duration := do
  let c ← s.entry ref
  let o ← c.observations.find? fun o => o.addr == observation
  let newest ← c.newestValue o
  return newest.timestamp

/-- The end of `update_notification_value`. -/
def scheduleUpdate (env : UpdateEnv β) (ref : ConnectionRef) (observation : Nat) (pmax : Int) (result : Int × State β) :
    Int × State β :=
  if result.1 = 0 ∧ 0 ≤ pmax then
    match result.2.newestTimestamp ref observation with
    | some newest => (result.1, result.2.scheduleTrigger env.schedule newest pmax ref observation)
    | none => result
  else result

/-- `update_notification_value` for an observation with the paths `paths`, given its newest value. -/
def updateNotificationValue (ops : BatchOps β) (env : UpdateEnv β) (ref : ConnectionRef) (o : Observation β)
    (newest : Value β) (s : State β) : Int × State β :=
  if newest.isError then (0, s)
  else if !o.paths.isEmpty && !env.batchesAllocated then (-1, s)
  else
    match updateLoop ops env.path newest 0 updateStart (o.paths.zip newest.values) with
    | .error e => (e.val, s)
    | .ok vars => scheduleUpdate env ref o.addr vars.pmax (insertUpdate env ref o.addr newest vars s)

end Anjay.Observe
