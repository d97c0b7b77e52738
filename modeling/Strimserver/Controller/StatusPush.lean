import Strimserver.Controller.RunConfig

/-!
# Pushing the status to the listeners

`controller.h` says that a listener is invoked whenever the status changes. The
status has two parts: the stages, of which every change notifies the listeners,
and the paths. `handle_path_event` stores the status of the path first, and
listeners hear of it only when the route of the event goes on to set a new
desired state. Without a route, with a route to the state that is already
desired or with a prerequisite that fails, the stored status is not pushed.

The theorem is exact: along a sequence of queue actions every listener holds the
current status after each action if and only if each path event that stores a
new status sets a new desired state too.
-/

namespace Strimserver.Controller

open List Option

variable (cfg : Config)

/-! ## Sequences of queue actions -/

/-- An action of the queue with what its handler asks the environment for. -/
structure QueueStep where
  shuttingDown : Bool
  env : ReconcileEnv
  action : Action

/-- The state after one action. -/
def queueStep (c : Core) (q : QueueStep) : Core := (runAction cfg q.shuttingDown q.env c q.action).1

/-- The state after the actions in order. -/
def queueRun (c : Core) (qs : List QueueStep) : Core := qs.foldl (queueStep cfg) c

/-! ## What the listeners hold -/

/-- The status that a listener received last. -/
def Core.received (c : Core) (l : Listener) : Option ControllerStatus :=
  (c.calls.find? fun call => decide (call.1 = l)).map Prod.snd

/-- Every registered listener holds the current status. -/
def StatusPushed (c : Core) : Prop := ∀ l ∈ c.listeners, c.received l = some (handleStatus c)

/-- `apply_desired_stage_target` gets past its two early returns. -/
def changesDesired {κ : Type} (c : Core) (target : Route κ) : Bool :=
  decide ((c.stages target.targetStage).status.desired ≠ target.targetState) &&
    decide ((target.prerequisite.map fun p => p (handleStatus c)).getD 0 = 0)

/-- The first assignment of `handle_path_event`. -/
def Core.setPath (c : Core) (path : PathName) (status : PathStatus) : Core :=
  { c with paths := Function.update c.paths path status }

/-- A path event that stores a new status sets a new desired state too, or there
is no one to notify. -/
def pathPushed (c : Core) (e : PathEvent) : Bool :=
  match PathName.ofCode e.path, PathStatus.ofCode e.status with
  | some path, some status =>
    c.listeners.isEmpty || decide (c.paths path = status) ||
      (cfg.pathRoutes.find (path, status)).any (changesDesired (c.setPath path status))
  | _, _ => true

def actionPushed (c : Core) : Action → Bool
  | .pathEvent e => pathPushed cfg c e
  | _ => true

/-- The condition on a sequence of actions. -/
def runPushed : Core → List QueueStep → Bool
  | _, [] => true
  | c, q :: qs => actionPushed cfg c q.action && runPushed (queueStep cfg c q) qs

/-! ## Notified states, and states that look the same -/

variable {cfg} {c c' : Core}

/-- After `notify_listeners` every listener holds the status. -/
theorem statusPushed_notifyListeners (c : Core) : StatusPushed (notifyListeners c) := by
  intro l registered
  let sent := (c.listeners.map fun l => (l, handleStatus c)).reverse
  have among : (l, handleStatus c) ∈ sent := mem_reverse.mpr (mem_map_of_mem registered)
  obtain ⟨call, found⟩ : ∃ call, sent.find? (fun call => decide (call.1 = l)) = some call := by
    apply isSome_iff_exists.mp
    rw [List.find?_isSome]
    exact ⟨_, among, decide_eq_true rfl⟩
  obtain ⟨l', -, rfl⟩ := mem_map.mp (mem_reverse.mp (List.mem_of_find?_eq_some found))
  show ((sent ++ c.calls).find? _).map Prod.snd = some (handleStatus c)
  rw [List.find?_append, found, some_or, map_some]

/-- The listeners cannot tell the states apart. -/
structure SameView (c c' : Core) : Prop where
  status : handleStatus c' = handleStatus c
  listeners : c'.listeners = c.listeners
  calls : c'.calls = c.calls

namespace SameView

theorem refl (c : Core) : SameView c c := ⟨rfl, rfl, rfl⟩

theorem trans {c'' : Core} (first : SameView c c') (second : SameView c' c'') : SameView c c'' :=
  ⟨second.status.trans first.status, second.listeners.trans first.listeners,
    second.calls.trans first.calls⟩

/-- A stage that keeps its status may change otherwise. -/
theorem setStage (c : Core) (st : StageName) {stage : Stage}
    (same : stage.status = (c.stages st).status) : SameView c (c.setStage st stage) := by
  refine ⟨?_, rfl, rfl⟩
  apply ControllerStatus.ext
  · rfl
  funext other
  by_cases eq : other = st
  · subst eq
    simp [handleStatus, same]
  · simp [handleStatus, Core.setStage_of_ne _ _ eq]

theorem pushed (view : SameView c c') (before : StatusPushed c) : StatusPushed c' := by
  intro l registered
  rw [view.listeners] at registered
  rw [view.status, Core.received, view.calls]
  exact before l registered

end SameView

/-! ## One lemma for each handler -/

/-- `apply_desired_stage_target` changes nothing or notifies. -/
theorem applyDesiredStageTarget_cases {κ : Type} (c : Core) (target : Route κ) :
    changesDesired c target = false ∧ (applyDesiredStageTarget c target).1 = c ∨
    changesDesired c target = true ∧
      ∃ changed, (applyDesiredStageTarget c target).1 = notifyListeners changed := by
  unfold applyDesiredStageTarget changesDesired
  dsimp only
  split
  · rename_i already
    exact .inl ⟨by simp [already], rfl⟩
  rename_i other
  split_ifs with refused
  · exact .inl ⟨by simp [refused], rfl⟩
  · exact .inr ⟨by simp [other, not_not.mp refused], _, rfl⟩

section

variable (before : StatusPushed c)

include before

/-- A stored path status that no one is told about. -/
theorem statusPushed_setPath_iff (path : PathName) (status : PathStatus) :
    StatusPushed (c.setPath path status) ↔ c.listeners = [] ∨ c.paths path = status := by
  constructor
  · intro after
    rcases listeners : c.listeners with _ | ⟨l, rest⟩
    · exact .inl rfl
    right
    have registered : l ∈ c.listeners := by simp [listeners]
    have held : some (handleStatus c) = some (handleStatus (c.setPath path status)) :=
      (before l registered).symm.trans (after l registered)
    have paths := congrArg (fun s => s.paths path) (Option.some.inj held)
    simpa [handleStatus, Core.setPath] using paths
  rintro (none | same)
  · intro l registered
    have registered : l ∈ c.listeners := registered
    rw [none] at registered
    cases registered
  have unchanged : c.setPath path status = c := by
    unfold Core.setPath
    rw [← same, Function.update_eq_self]
  rw [unchanged]
  exact before

/-- **A path event pushes the status exactly under the condition.** -/
theorem statusPushed_pathEvent_iff (e : PathEvent) :
    StatusPushed (handlePathEvent cfg c e).1 ↔ pathPushed cfg c e = true := by
  unfold handlePathEvent pathPushed
  split
  · rename_i unknown
    simpa [unknown] using before
  rename_i path named
  split
  · rename_i invalid
    simpa [named, invalid] using before
  rename_i status valid
  have stored : StatusPushed (c.setPath path status) ↔
      (c.listeners.isEmpty || decide (c.paths path = status)) = true := by
    rw [statusPushed_setPath_iff before]
    simp
  rw [named, valid]
  dsimp only
  split
  · rename_i noRoute
    rw [noRoute, any_none, Bool.or_false]
    exact stored
  -- The route is asked in the state that already holds the new path status.
  rename_i route found
  show StatusPushed (applyDesiredStageTarget (c.setPath path status) route).1 ↔ _
  rw [found, any_some]
  rcases applyDesiredStageTarget_cases (c.setPath path status) route with
    ⟨skipped, same⟩ | ⟨changes, changed, notified⟩
  · rw [same, skipped, Bool.or_false]
    exact stored
  · rw [notified, changes, Bool.or_true]
    exact iff_of_true (statusPushed_notifyListeners changed) rfl

theorem statusPushed_control (cmd : ControlCommand) : StatusPushed (handleControl cfg c cmd).1 := by
  unfold handleControl
  split
  · exact before
  split
  · exact before
  split
  · exact before
  rename_i route _
  rcases applyDesiredStageTarget_cases c route with ⟨-, same⟩ | ⟨-, changed, notified⟩
  · rw [same]
    exact before
  · rw [notified]
    exact statusPushed_notifyListeners changed

theorem statusPushed_stageEvent (e : StageEvent) : StatusPushed (handleStageEvent c e).1 := by
  unfold handleStageEvent
  split
  · exact before
  split
  · exact before
  dsimp only
  split
  · exact statusPushed_notifyListeners _
  rename_i st _ _ state _ same
  refine (SameView.setStage c st ?_).pushed before
  rw [← not_not.mp same]

theorem statusPushed_addListener (l : Listener) : StatusPushed (handleAddListener c l).1 := by
  unfold handleAddListener
  split
  · exact before
  split
  · exact before
  intro l' registered
  rcases mem_append.mp registered with old | new
  · by_cases same : l = l'
    · simp [Core.received, same, handleStatus]
    · have held := before l' old
      simpa [Core.received, same, handleStatus] using held
  · obtain rfl := mem_singleton.mp new
    simp [Core.received, handleStatus]

theorem statusPushed_removeListener (l : Listener) : StatusPushed (handleRemoveListener c l).1 := by
  unfold handleRemoveListener
  split
  · exact fun l' registered => before l' (mem_of_mem_erase registered)
  · exact before

end

/-! ## Reconcile, clear and teardown -/

theorem sameView_clearInflight (c : Core) (st : StageName) (generation : UInt64) :
    SameView c (clearInflight c st generation) := by
  unfold clearInflight
  dsimp only
  split
  · exact .setStage c st rfl
  · exact .refl c

theorem sameView_reconcileExamine (cfg : Config) (c : Core) (st : StageName) (now : ℤ) :
    SameView c (reconcileExamine cfg c st now).1 := by
  unfold reconcileExamine
  dsimp only
  split
  · exact .setStage c st rfl
  split
  · exact .refl c
  · split <;> exact .refl c

theorem sameView_fireStage (c : Core) (st : StageName) (target : StageState) (now : ℤ)
    (outcome : FireOutcome) : SameView c (fireStage cfg c st target now outcome).1 := by
  cases outcome with
  | jobAllocFailed => exact .refl c
  | submitFailed | launched => exact .setStage c st rfl

theorem sameView_reconcileStage (env : ReconcileEnv) (c : Core) (st : StageName) :
    SameView c (reconcileStage cfg env c st).1 := by
  have examined := sameView_reconcileExamine cfg c st (env.examineNow st)
  unfold reconcileStage
  split
  · rename_i decided
    rw [decided] at examined
    exact examined
  rename_i decided
  rw [decided] at examined
  exact examined.trans (sameView_fireStage _ _ _ _ _)

theorem sameView_handleReconcile (shuttingDown : Bool) (env : ReconcileEnv) (c : Core) :
    SameView c (handleReconcile cfg shuttingDown env c).1 := by
  unfold handleReconcile
  split
  · exact .refl c
  generalize StageName.all = stages
  induction stages generalizing c with
  | nil => exact .refl c
  | cons st rest ih => exact (sameView_reconcileStage env c st).trans (ih _)

/-! ## Runs -/

/-- **One action keeps every listener up to date exactly under the condition.** -/
theorem statusPushed_queueStep_iff (before : StatusPushed c) (q : QueueStep) :
    StatusPushed (queueStep cfg c q) ↔ actionPushed cfg c q.action = true := by
  obtain ⟨shuttingDown, env, action⟩ := q
  cases action with
  | pathEvent e => exact statusPushed_pathEvent_iff before e
  | control cmd => exact iff_of_true (statusPushed_control before cmd) rfl
  | stageEvent e => exact iff_of_true (statusPushed_stageEvent before e) rfl
  | status => exact iff_of_true before rfl
  | addListener l => exact iff_of_true (statusPushed_addListener before l) rfl
  | removeListener l => exact iff_of_true (statusPushed_removeListener before l) rfl
  | reconcile => exact iff_of_true ((sameView_handleReconcile shuttingDown env c).pushed before) rfl
  | clearInflight st generation =>
    exact iff_of_true ((sameView_clearInflight c st generation).pushed before) rfl
  | teardown => exact iff_of_true (statusPushed_notifyListeners _) rfl

theorem statusPushed_queueRun_iff (before : StatusPushed c) (qs : List QueueStep) :
    (∀ done, done <+: qs → StatusPushed (queueRun cfg c done)) ↔ runPushed cfg c qs = true := by
  induction qs generalizing c with
  | nil =>
    refine iff_of_true (fun done sub => ?_) rfl
    rw [prefix_nil.mp sub]
    exact before
  | cons q qs ih =>
    rw [runPushed, Bool.and_eq_true, ← statusPushed_queueStep_iff before]
    constructor
    · intro along
      have after : StatusPushed (queueStep cfg c q) :=
        along [q] (prefix_cons_iff.mpr (.inr ⟨[], rfl, nil_prefix⟩))
      refine ⟨after, (ih after).mp fun done sub => ?_⟩
      exact along (q :: done) (prefix_cons_iff.mpr (.inr ⟨done, rfl, sub⟩))
    rintro ⟨after, rest⟩ done sub
    rcases prefix_cons_iff.mp sub with rfl | ⟨done', rfl, sub'⟩
    · exact before
    · exact (ih after).mpr rest done' sub'

/-- **The status push is faithful exactly when every stored path status is pushed.** After each
action of a sequence every registered listener holds the current status if and only if each path
event that stores a new status while listeners are registered also sets a new desired state. -/
theorem status_push_faithful {raw : ControllerConfig}
    (accepted : controllerNew raw = .ok (cfg, c)) (qs : List QueueStep) :
    (∀ done, done <+: qs → StatusPushed (queueRun cfg c done)) ↔ runPushed cfg c qs = true := by
  apply statusPushed_queueRun_iff
  intro l registered
  rw [(controllerNew_fresh accepted).listeners] at registered
  cases registered

/-- An action of a controller that is not shut down, with the clock at one. -/
def plainStep (action : Action) : QueueStep where
  shuttingDown := false
  env := ⟨fun _ => 1, fun _ => 1, fun _ => .launched⟩
  action := action

/-- A listener, and an event of the first path, which has a route. -/
def routedRun : List QueueStep :=
  [plainStep (.addListener ⟨1, 0⟩), plainStep (.pathEvent ⟨0, 1⟩),
    plainStep (.stageEvent ⟨1, 1⟩)]

/-- In the program the listener holds the status after each of these actions. -/
theorem status_push_faithful_routed :
    ∃ cfg, controllerNew (runConfig false 1000 16) = .ok (cfg, runCore) ∧
      (∀ done, done <+: routedRun → StatusPushed (queueRun cfg runCore done)) ∧
      (queueRun cfg runCore routedRun).listeners = [⟨1, 0⟩] ∧
      (queueRun cfg runCore routedRun).paths .ingress0 = .ready := by
  obtain ⟨⟨hasOp, ⟨routes, nodup, targets⟩, controlRoutes, timeout, positive⟩, accepted, ops, -,
    rfl⟩ := controllerNew_run false 1000 16 (by decide) (by decide)
  obtain rfl : hasOp = fun _ _ => true := funext fun st => funext fun state => ops st state
  exact ⟨_, accepted, (status_push_faithful accepted routedRun).mpr rfl, rfl, rfl⟩

/-- **A subscriber goes stale.** Listeners do not hold the current status after every action: an
event of the second path has no route, and its status is stored without a call. -/
theorem status_push_stale :
    ¬ ∀ (raw : ControllerConfig) (cfg : Config) (c : Core), controllerNew raw = .ok (cfg, c) →
      ∀ qs done : List QueueStep, done <+: qs → StatusPushed (queueRun cfg c done) := by
  intro claim
  obtain ⟨cfg, accepted, -, -, routes⟩ := controllerNew_run false 1000 16 (by decide) (by decide)
  have unrouted : cfg.pathRoutes.find (.normalized, .ready) = none := by
    rw [RouteTable.find, routes]
    rfl
  let qs := [plainStep (.addListener ⟨1, 0⟩), plainStep (.pathEvent ⟨1, 1⟩)]
  have held := claim _ cfg runCore accepted qs qs (prefix_refl qs)
  have after : queueRun cfg runCore qs =
      ((handleAddListener runCore ⟨1, 0⟩).1).setPath .normalized .ready := by
    show (handlePathEvent cfg (handleAddListener runCore ⟨1, 0⟩).1 ⟨1, 1⟩).1 = _
    unfold handlePathEvent
    simp only [PathName.ofCode, PathStatus.ofCode, unrouted]
    rfl
  have start : StatusPushed runCore := by
    intro l registered
    cases registered
  rw [after, statusPushed_setPath_iff (statusPushed_addListener start _)] at held
  rcases held with none | same
  · cases none
  · cases same

end Strimserver.Controller
