import Strimserver.Controller.Process
import Strimserver.Controller.StatusPush
import Strimserver.Controller.Steps

/-!
# Desired states and the routes behind them

A desired state comes from the configuration or from a route. A handler that fails leaves
the state as it is, and only a path event whose route is refused by its prerequisite has stored the
status of its path before. A handler that changes a desired state has met a registered route to
that stage and state, with a prerequisite that allowed it.

The constructor checks that every target of a route has an operation. It does not check the desired
states that the stages are seeded with. `reconcile_total_iff` says what follows: the
branch of the reconcile pass without an operation is out of reach exactly when the seeded
desired states have operations too.
-/

namespace Strimserver.Controller

open Library List

variable {cfg : Config} {c : Core}

/-! ## Handlers that fail -/

/-- The prerequisite of a route, if there is one, allows the change. -/
def Route.passes {κ : Type} (route : Route κ) (c : Core) : Prop :=
  (route.prerequisite.map fun p => p (handleStatus c)).getD 0 = 0

variable {err : CtrlErr}

/-- `apply_desired_stage_target` fails without a change. -/
theorem applyDesiredStageTarget_error {κ : Type} {target : Route κ}
    (failed : (applyDesiredStageTarget c target).2 = .error err) :
    (applyDesiredStageTarget c target).1 = c ∧ err = .prereq ∧ ¬ target.passes c := by
  unfold applyDesiredStageTarget at failed ⊢
  dsimp only at failed ⊢
  split_ifs at failed ⊢ with already refused
  cases failed
  exact ⟨rfl, rfl, refused⟩

/-- The ways through `strim_controller_handle_path_event`. -/
theorem handlePathEvent_cases (cfg : Config) (c : Core) (e : PathEvent) :
    (∃ err, handlePathEvent cfg c e = (c, .error err)) ∨
    ∃ path status, PathName.ofCode e.path = some path ∧ PathStatus.ofCode e.status = some status ∧
      (handlePathEvent cfg c e = (c.setPath path status, .ok ()) ∨
        ∃ route, cfg.pathRoutes.find (path, status) = some route ∧
          handlePathEvent cfg c e = applyDesiredStageTarget (c.setPath path status) route) := by
  unfold handlePathEvent
  cases named : PathName.ofCode e.path with
  | none => exact .inl ⟨_, rfl⟩
  | some path =>
    cases valid : PathStatus.ofCode e.status with
    | none => exact .inl ⟨_, rfl⟩
    | some status =>
      refine .inr ⟨path, status, rfl, rfl, ?_⟩
      dsimp only
      cases found : cfg.pathRoutes.find (path, status) with
      | none => exact .inl rfl
      | some route => exact .inr ⟨route, rfl, rfl⟩

/-- The ways through `strim_controller_handle_control`. -/
theorem handleControl_cases (cfg : Config) (c : Core) (cmd : ControlCommand) :
    handleControl cfg c cmd = (c, .error .unknown) ∨
    ∃ component action route, ControlComponent.ofCode cmd.component = some component ∧
      ControlAction.ofCode cmd.action = some action ∧
      cfg.controlRoutes.find (component, action) = some route ∧
      handleControl cfg c cmd = applyDesiredStageTarget c route := by
  unfold handleControl
  cases named : ControlComponent.ofCode cmd.component with
  | none => exact .inl rfl
  | some component =>
    cases valid : ControlAction.ofCode cmd.action with
    | none => exact .inl rfl
    | some action =>
      dsimp only
      cases found : cfg.controlRoutes.find (component, action) with
      | none => exact .inl rfl
      | some route => exact .inr ⟨component, action, route, rfl, rfl, found, rfl⟩

/-! ## Handlers that change a desired state -/

def Core.desired (c : Core) (st : StageName) : StageState := (c.stages st).status.desired

@[simp] theorem Core.desired_notifyListeners (c : Core) (st : StageName) :
    (notifyListeners c).desired st = c.desired st := rfl

/-- A stage is replaced by one with the same desired state. -/
theorem Core.desired_setStage (c : Core) (other : StageName) (stage : Stage)
    (same : stage.status.desired = c.desired other) (st : StageName) :
    (c.setStage other stage).desired st = c.desired st := by
  by_cases eq : st = other
  · subst eq
    rw [Core.desired, Core.setStage_self, same]
  · rw [Core.desired, Core.setStage_of_ne _ _ eq, Core.desired]

variable {st : StageName}

theorem applyDesiredStageTarget_desired {κ : Type} {target : Route κ}
    (changed : (applyDesiredStageTarget c target).1.desired st ≠ c.desired st) :
    target.targetStage = st ∧ target.targetState = (applyDesiredStageTarget c target).1.desired st ∧
      target.passes c := by
  unfold applyDesiredStageTarget at changed ⊢
  dsimp only at changed ⊢
  split_ifs at changed ⊢ with already refused
  · exact (changed rfl).elim
  · exact (changed rfl).elim
  rw [Core.desired_notifyListeners] at changed ⊢
  by_cases same : st = target.targetStage
  · subst same
    rw [Core.desired, Core.setStage_self]
    exact ⟨rfl, rfl, not_not.mp refused⟩
  · rw [Core.desired, Core.setStage_of_ne _ _ same] at changed
    exact (changed rfl).elim

/-- An action whose input matches a registered route to this stage and state, with a prerequisite
that passes when it is asked. -/
inductive Routed (cfg : Config) (c : Core) (st : StageName) (state : StageState) :
    Action → Prop where
  | path {e : PathEvent} {path : PathName} {status : PathStatus} {route : Route PathKey}
      (named : PathName.ofCode e.path = some path)
      (valid : PathStatus.ofCode e.status = some status)
      (registered : route ∈ cfg.pathRoutes.routes) (key : route.key = (path, status))
      (stage : route.targetStage = st) (target : route.targetState = state)
      (passes : route.passes (c.setPath path status)) : Routed cfg c st state (.pathEvent e)
  | control {cmd : ControlCommand} {component : ControlComponent} {action : ControlAction}
      {route : Route ControlKey} (named : ControlComponent.ofCode cmd.component = some component)
      (valid : ControlAction.ofCode cmd.action = some action)
      (registered : route ∈ cfg.controlRoutes.routes) (key : route.key = (component, action))
      (stage : route.targetStage = st) (target : route.targetState = state)
      (passes : route.passes c) : Routed cfg c st state (.control cmd)

/-- A route leads to a state that has an operation. -/
theorem Routed.hasOp {state : StageState} {a : Action} (routed : Routed cfg c st state a) :
    cfg.stageOpFor st state = true := by
  cases routed with
  | path _ _ registered _ stage target _ =>
    rw [← stage, ← target]
    exact cfg.pathRoutes.targetsHaveOps _ registered
  | control _ _ registered _ stage target _ =>
    rw [← stage, ← target]
    exact cfg.controlRoutes.targetsHaveOps _ registered

theorem handlePathEvent_desired {e : PathEvent}
    (changed : (handlePathEvent cfg c e).1.desired st ≠ c.desired st) :
    Routed cfg c st ((handlePathEvent cfg c e).1.desired st) (.pathEvent e) := by
  rcases handlePathEvent_cases cfg c e with
    ⟨_, refused⟩ | ⟨path, status, named, valid, stored | ⟨route, found, asked⟩⟩
  · rw [refused] at changed
    exact (changed rfl).elim
  · rw [stored] at changed
    exact (changed rfl).elim
  rw [asked] at changed ⊢
  obtain ⟨stage, target, passes⟩ := applyDesiredStageTarget_desired changed
  obtain ⟨registered, key⟩ := (cfg.pathRoutes.find_eq_some_iff _ route).mp found
  exact .path named valid registered key stage target passes

theorem handleStageEvent_desired (c : Core) (e : StageEvent) (st : StageName) :
    (handleStageEvent c e).1.desired st = c.desired st := by
  unfold handleStageEvent
  cases StageName.ofCode e.stage with
  | none => rfl
  | some other =>
    cases StageState.ofCode e.state with
    | none => rfl
    | some =>
      dsimp only
      split_ifs
      · exact Core.desired_setStage c other _ (by rfl) st
      · exact Core.desired_setStage c other _ (by rfl) st

/-- Two states that listeners cannot tell apart have the same desired states. -/
theorem SameView.desired {c' : Core} (view : SameView c c') (st : StageName) :
    c'.desired st = c.desired st :=
  congrArg (fun status => (status.stages st).desired) view.status

/-- An action other than the teardown changes a desired state by a route. -/
theorem runAction_desired {shuttingDown : Bool} {env : ReconcileEnv} {a : Action}
    (other : a ≠ .teardown)
    (changed : (runAction cfg shuttingDown env c a).1.desired st ≠ c.desired st) :
    Routed cfg c st ((runAction cfg shuttingDown env c a).1.desired st) a := by
  cases a with
  | pathEvent => exact handlePathEvent_desired changed
  | control cmd =>
    change (handleControl cfg c cmd).1.desired st ≠ c.desired st at changed
    show Routed cfg c st ((handleControl cfg c cmd).1.desired st) (.control cmd)
    rcases handleControl_cases cfg c cmd with
      refused | ⟨component, action, route, named, valid, found, asked⟩
    · rw [refused] at changed
      exact (changed rfl).elim
    rw [asked] at changed ⊢
    obtain ⟨stage, target, passes⟩ := applyDesiredStageTarget_desired changed
    obtain ⟨registered, key⟩ := (cfg.controlRoutes.find_eq_some_iff _ route).mp found
    exact .control named valid registered key stage target passes
  | stageEvent e => exact (changed (handleStageEvent_desired c e st)).elim
  | status => exact (changed rfl).elim
  | addListener | removeListener =>
    refine (changed ?_).elim
    unfold runAction handleAddListener handleRemoveListener
    dsimp only
    split_ifs <;> rfl
  | reconcile => exact (changed ((sameView_handleReconcile shuttingDown env c).desired st)).elim
  | clearInflight cleared generation =>
    exact (changed ((sameView_clearInflight c cleared generation).desired st)).elim
  | teardown => exact (other rfl).elim

/-! ## Runs of actions

A prerequisite is a callback with data of its own, so it may answer differently each time
it is asked. Every action of a run comes with the answers of its moment.
-/

def Route.answering {κ : Type} (answer : κ → Prerequisite) (route : Route κ) : Route κ :=
  { route with prerequisite := route.prerequisite.map fun _ => answer route.key }

def RouteTable.answering {κ : Type} {hasOp : StageName → StageState → Bool}
    (table : RouteTable κ hasOp) (answer : κ → Prerequisite) : RouteTable κ hasOp where
  routes := table.routes.map (Route.answering answer)
  keysNodup := by
    rw [map_map]
    exact table.keysNodup
  targetsHaveOps := by
    intro route member
    obtain ⟨registered, among, rfl⟩ := mem_map.mp member
    exact table.targetsHaveOps registered among

/-- An action with the answers that the prerequisites give when it is handled. -/
structure AskedStep where
  step : QueueStep
  pathAnswer : PathKey → Prerequisite
  controlAnswer : ControlKey → Prerequisite

def Config.answering (cfg : Config) (q : AskedStep) : Config :=
  { cfg with
    pathRoutes := cfg.pathRoutes.answering q.pathAnswer
    controlRoutes := cfg.controlRoutes.answering q.controlAnswer }

/-- The state after the actions in order. -/
def askedRun (cfg : Config) (c : Core) (qs : List AskedStep) : Core :=
  qs.foldl (fun c q => queueStep (cfg.answering q) c q.step) c

/-- **Handlers fail without a change, and desired states are guarded.** An event or command that is
answered with an error leaves the state as it was, up to the status of the path when the
prerequisite of the route refuses. In every run, an action that is no teardown changes the desired
state of a stage only to the target of a registered route that its input matches and whose
prerequisite passes at that moment. -/
theorem handlers_atomic_and_guarded (cfg : Config) (c : Core) :
    (∀ e err, (handlePathEvent cfg c e).2 = .error err →
      (handlePathEvent cfg c e).1 = c ∨
      ∃ path status route, PathName.ofCode e.path = some path ∧
      PathStatus.ofCode e.status = some status ∧
        route ∈ cfg.pathRoutes.routes ∧ route.key = (path, status) ∧
        ¬ route.passes (c.setPath path status) ∧ err = .prereq ∧
        (handlePathEvent cfg c e).1 = c.setPath path status) ∧
    (∀ cmd err, (handleControl cfg c cmd).2 = .error err → (handleControl cfg c cmd).1 = c) ∧
    (∀ e err, (handleStageEvent c e).2 = .error err → (handleStageEvent c e).1 = c) ∧
    ∀ (done : List AskedStep) (q : AskedStep) (st : StageName), q.step.action ≠ .teardown →
      (askedRun cfg c (done ++ [q])).desired st ≠ (askedRun cfg c done).desired st →
      Routed (cfg.answering q) (askedRun cfg c done) st ((askedRun cfg c (done ++ [q])).desired st)
        q.step.action := by
  refine ⟨fun e err failed => ?_, fun cmd err failed => ?_, fun e err failed => ?_, ?_⟩
  · -- Nothing has changed, or the status is stored and the prerequisite of the route has refused.
    rcases handlePathEvent_cases cfg c e with
      ⟨_, refused⟩ | ⟨path, status, named, valid, stored | ⟨route, found, asked⟩⟩
    · exact .inl (congrArg Prod.fst refused)
    · rw [stored] at failed
      cases failed
    rw [asked] at failed ⊢
    obtain ⟨same, prereq, refused⟩ := applyDesiredStageTarget_error failed
    obtain ⟨registered, key⟩ := (cfg.pathRoutes.find_eq_some_iff _ route).mp found
    exact .inr ⟨path, status, route, named, valid, registered, key, refused, prereq, same⟩
  · rcases handleControl_cases cfg c cmd with refused | ⟨_, _, route, -, -, -, asked⟩
    · exact congrArg Prod.fst refused
    · rw [asked] at failed ⊢
      exact (applyDesiredStageTarget_error failed).1
  · unfold handleStageEvent at failed ⊢
    cases named : StageName.ofCode e.stage with
    | none => rfl
    | some =>
      cases valid : StageState.ofCode e.state with
      | none => rfl
      | some =>
        rw [named, valid] at failed
        dsimp only at failed
        split_ifs at failed
  intro done q st other changed
  have last :
      askedRun cfg c (done ++ [q]) = queueStep (cfg.answering q) (askedRun cfg c done) q.step :=
    foldl_concat _ _ _ _
  rw [last] at changed ⊢
  exact runAction_desired other changed

/-- The first path becomes ready, and prerequisites ask for it. -/
def pathReady : AskedStep :=
  ⟨plainStep (.pathEvent ⟨0, 1⟩), fun _ => prereqIngress0Ready, fun _ => prereqIngress0Ready⟩

/-- In the program an egress is refused as long as the first path is not ready, and the first path
drives the second stage. -/
theorem egress_refused_and_path_routed :
    ∃ cfg c, controllerNew (runConfig false 1000 16) = .ok (cfg, c) ∧
      (handleControl cfg c ⟨0, 0⟩).2 = .error .prereq ∧ (handleControl cfg c ⟨0, 0⟩).1 = c ∧
      Routed (cfg.answering pathReady) c .normalize .running (.pathEvent ⟨0, 1⟩) := by
  have facts : ∃ cfg c, controllerNew (runConfig false 1000 16) = .ok (cfg, c) ∧
      (handleControl cfg c ⟨0, 0⟩).2 = .error .prereq ∧ c.desired .normalize = .stopped ∧
      (askedRun cfg c [pathReady]).desired .normalize = .running :=
    ⟨_, _, rfl, rfl, rfl, rfl⟩
  obtain ⟨cfg, c, accepted, refused, stopped, running⟩ := facts
  obtain ⟨-, control, -, guarded⟩ := handlers_atomic_and_guarded cfg c
  have routed := guarded [] pathReady .normalize (by decide) (by
    show (askedRun cfg c [pathReady]).desired .normalize ≠ c.desired .normalize
    rw [running, stopped]
    decide)
  exact ⟨cfg, c, accepted, refused, control _ _ refused, running ▸ routed⟩

/-! ## The reconcile pass finds its operation -/

/-- The branch of the reconcile pass for a stage that is to be fired and has no operation. -/
def opMissing (cfg : Config) (c : Core) (st : StageName) (now : ℤ) : Bool :=
  let stage := c.stages st
  decide (stage.status.desired ≠ stage.status.actual) &&
    decide (stage.inFlightSince = 0 ∨ cfg.inflightTimeoutMs ≤ now - stage.inFlightSince) &&
    !cfg.stageOpFor st stage.status.desired

/-- Every desired state has an operation, and so has the state to which the teardown brings a
stage. -/
structure Backed (cfg : Config) (s : Sys) : Prop where
  desired : ∀ st, cfg.stageOpFor st (s.core.desired st) = true
  stopping : ∀ ticket st rest, s.thread = .stopping ticket st rest →
    cfg.stageOpFor st .stopped = true

variable {s s' : Sys} {l : Label}

section

variable (backed : Backed cfg s)

include backed

theorem Backed.of_frame (core : s'.core = s.core) (thread : s'.thread = s.thread) : Backed cfg s' :=
  ⟨core ▸ backed.desired, thread ▸ backed.stopping⟩

/-- The queue thread leaves the desired states alone, and is in no call of a stop operation. -/
theorem Backed.of_desired
    (same : ∀ st, s'.core.desired st = s.core.desired st ∨
      cfg.stageOpFor st (s'.core.desired st) = true)
    (thread : ∀ ticket st rest, s'.thread ≠ .stopping ticket st rest) : Backed cfg s' := by
  refine ⟨fun st => ?_, fun ticket st rest stops => (thread ticket st rest stops).elim⟩
  rcases same st with eq | op
  · rw [eq]
    exact backed.desired st
  · exact op

theorem Backed.of_view (view : SameView s.core s'.core)
    (thread : ∀ ticket st rest, s'.thread ≠ .stopping ticket st rest) : Backed cfg s' :=
  backed.of_desired (fun st => .inl (view.desired st)) thread

theorem Backed.handled {act : Action} {ticket : Option ℕ} {r : Core × Result} {events : List Event}
    (handles : handler cfg s.core act = some (r, events)) :
    Backed cfg (s.handled ticket r events) := by
  have run : r.1 = queueStep cfg s.core (plainStep act) := by cases act <;> cases handles <;> rfl
  have other : act ≠ .teardown := by
    rintro rfl
    cases handles
  refine backed.of_desired (fun st => (em _).imp_right fun changed => ?_) nofun
  change ¬ r.1.desired st = s.core.desired st at changed
  show cfg.stageOpFor st (r.1.desired st) = true
  rw [run] at changed ⊢
  exact (runAction_desired other changed).hasOp

theorem Backed.stopped {ticket : Option ℕ} {rest : List StageName}
    (at_ : s.thread = .stopping ticket st rest) (log : List Event) :
    Backed cfg
      { s with core := teardownStopped s.core st, thread := .tearingDown ticket rest, log } := by
  refine backed.of_desired (fun other => ?_) nofun
  by_cases same : other = st
  · subst same
    refine .inr ?_
    show cfg.stageOpFor other ((s.core.setStage other _).desired other) = true
    rw [Core.desired, Core.setStage_self]
    exact backed.stopping ticket other rest at_
  refine .inl ?_
  show (s.core.setStage st _).desired other = _
  rw [Core.desired, Core.setStage_of_ne _ _ same, Core.desired]

theorem Backed.step (h : step cfg s l = some s') : Backed cfg s' := by
  cases actor : l.actor with
  | submitter =>
    have frame := step_submitter h actor
    exact backed.of_frame frame.core frame.thread
  | worker =>
    have frame := step_worker h actor
    exact backed.of_frame frame.core frame.thread
  | queueThread =>
    cases loopMove_of_step h actor with
    | handled act ticket r events at_ handles => exact backed.handled handles
    | spared st rest now => exact backed.of_view (sameView_reconcileExamine cfg s.core st now) nofun
    | refused st target rest now =>
      exact backed.of_view (@sameView_fireStage cfg s.core st target now .submitFailed) nofun
    | launched st target rest now =>
      exact backed.of_view (@sameView_fireStage cfg s.core st target now .launched) nofun
    | stops ticket st rest at_ tears =>
      refine ⟨fun other => ?_, fun ticket' other rest' stops => ?_⟩
      · have same : (teardownBump s.core st).desired other = s.core.desired other :=
          Core.desired_setStage s.core st _ (by rfl) other
        exact same ▸ backed.desired other
      · cases stops
        exact (Bool.and_eq_true_iff.mp tears).2
    | stopped ticket st rest at_ => exact backed.stopped at_ _
    | _ => exact backed.of_desired (fun _ => .inl rfl) nofun

end

/-! ## A run to the missing operation -/

/-- The pass comes to each of its stages, and leaves the stage alone until then. -/
theorem leads_to_stage (before : List StageName) {rest : List StageName} (fresh : st ∉ before)
    (at_ : s.thread = .reconciling (before ++ st :: rest)) :
    ∃ s', (system cfg).Leads s s' ∧ s'.thread = .reconciling (st :: rest) ∧
      s'.core.stages st = s.core.stages st := by
  induction before generalizing s with
  | nil => exact ⟨s, .refl s, at_, rfl⟩
  | cons first before ih =>
    obtain ⟨other, fresh⟩ := not_or.mp (mt mem_cons.mpr fresh)
    have examined : (system cfg).step s (.examine 0) =
        some (s.examine cfg first (before ++ st :: rest) 0) := by
      show step cfg s (.examine 0) = _
      rw [step, at_]
      rfl
    have kept : (s.examine cfg first (before ++ st :: rest) 0).core.stages st =
        s.core.stages st := by
      show (reconcileExamine cfg s.core first 0).1.stages st = _
      unfold reconcileExamine
      dsimp only
      split_ifs
      · exact Core.setStage_of_ne _ _ other
      · rfl
      · rfl
      · rfl
    cases decided : (reconcileExamine cfg s.core first 0).2 with
    | none =>
      have next : (s.examine cfg first (before ++ st :: rest) 0).thread =
          .reconciling (before ++ st :: rest) := by
        unfold Sys.examine
        dsimp only
        rw [decided]
      obtain ⟨s', leads, there, same⟩ := ih fresh next
      exact ⟨s', (Machine.Leads.single examined).trans leads, there, same.trans kept⟩
    | some target =>
      -- the fire section is entered and leaves again without a job
      have next : (s.examine cfg first (before ++ st :: rest) 0).thread =
          .firing first target (before ++ st :: rest) := by
        unfold Sys.examine
        dsimp only
        rw [decided]
      set mid := s.examine cfg first (before ++ st :: rest) 0
      have fired : (system cfg).step mid (.fire 0 .jobAllocFailed) =
          some (mid.fire cfg first target (before ++ st :: rest) 0 .jobAllocFailed) := by
        show step cfg mid (.fire 0 .jobAllocFailed) = _
        rw [step, next]
      have left : mid.fire cfg first target (before ++ st :: rest) 0 .jobAllocFailed =
          { mid with thread := .reconciling (before ++ st :: rest) } := by
        unfold Sys.fire
        split_ifs <;> rfl
      rw [left] at fired
      obtain ⟨s', leads, there, same⟩ :=
        ih (s := { mid with thread := .reconciling (before ++ st :: rest) }) fresh rfl
      exact ⟨s', ((Machine.Leads.single examined).trans (.single fired)).trans leads, there,
        same.trans kept⟩

def StageState.other : StageState → StageState
  | .stopped => .running
  | .running => .stopped

/-- A stage event brings a stage away from its desired state, and the next pass comes to it. -/
theorem leads_to_missing (missing : cfg.stageOpFor st (c.desired st) = false) :
    ∃ s rest, (system cfg).Leads (Sys.start c) s ∧ s.thread = .reconciling (st :: rest) ∧
      opMissing cfg s.core st 0 = true := by
  let e : StageEvent := ⟨st.code, (c.desired st).other.code⟩
  have entered : ∃ s, (system cfg).exec (Sys.start c)
      [.submit (.stageEvent e), .dequeue, .dispatch, .reply, .requestReconcile true, .dequeue,
        .dispatch] =
        some s ∧ s.core = (handleStageEvent c e).1 ∧ s.thread = .reconciling StageName.all :=
    ⟨_, rfl, rfl, rfl⟩
  obtain ⟨s, run, core, thread⟩ := entered
  obtain ⟨before, rest, split⟩ := append_of_mem (StageName.mem_all st)
  have fresh : st ∉ before := by
    have nodup := StageName.all_nodup
    rw [split] at nodup
    exact fun among => (disjoint_of_nodup_append nodup) among mem_cons_self
  rw [split] at thread
  obtain ⟨s', leads, there, same⟩ := @leads_to_stage cfg st s before rest fresh thread
  refine ⟨s', rest, (show (system cfg).Leads (Sys.start c) s from ⟨_, run⟩).trans leads, there, ?_⟩
  have stage : (s'.core.stages st).status = ⟨c.desired st, (c.desired st).other⟩ ∧
      (s'.core.stages st).inFlightSince = 0 := by
    rw [same, core]
    unfold handleStageEvent
    simp only [e, StageName.ofCode_code, StageState.ofCode_code]
    split_ifs
    · rw [notifyListeners_stages, Core.setStage_self]
      exact ⟨rfl, rfl⟩
    · rw [Core.setStage_self]
      exact ⟨rfl, rfl⟩
  obtain ⟨status, idle⟩ := stage
  have apart : c.desired st ≠ (c.desired st).other := by cases c.desired st <;> decide
  simp [opMissing, status, idle, apart, missing]

/-- **The reconcile pass is total exactly when the seeded states have operations.** In every state
that the controller and its threads can reach, a pass finds the operation of each stage it comes to,
if and only if every stage has an operation for the desired state it is seeded with. -/
theorem reconcile_total_iff {raw : ControllerConfig} (accepted : controllerNew raw = .ok (cfg, c)) :
    (∀ s st rest now, (system cfg).Leads (Sys.start c) s → s.thread = .reconciling (st :: rest) →
      opMissing cfg s.core st now = false) ↔
    ∀ st state, StageState.ofCode (raw.stages st).desired = some state →
      raw.stageOpFor st state = true := by
  obtain ⟨ops, stages, -⟩ := controllerNew_ok accepted
  have seeded (st : StageName) :
      StageState.ofCode (raw.stages st).desired = some (c.desired st) := by
    have parsed := parseStages_some stages st
    unfold parseStage at parsed
    dsimp only at parsed
    split_ifs at parsed
    obtain ⟨desired, valid, parsed⟩ := Option.bind_eq_some_iff.mp parsed
    obtain ⟨actual, -, built⟩ := Option.map_eq_some_iff.mp parsed
    rw [valid, Core.desired]
    exact congrArg (fun stage : Stage => some stage.status.desired) built
  have rephrased : (∀ st state, StageState.ofCode (raw.stages st).desired = some state →
      raw.stageOpFor st state = true) ↔ ∀ st, cfg.stageOpFor st (c.desired st) = true := by
    rw [ops]
    constructor
    · exact fun all st => all st _ (seeded st)
    intro all st state valid
    cases (seeded st).symm.trans valid
    exact all st
  rw [rephrased]
  constructor
  · intro never st
    cases missing : cfg.stageOpFor st (c.desired st) with
    | true => rfl
    | false =>
      obtain ⟨s, rest, leads, there, found⟩ := leads_to_missing missing
      exact (Bool.false_ne_true ((never s st rest 0 leads there).symm.trans found)).elim
  intro all s st rest now leads _
  have backed : Backed cfg s :=
    leads.induct ⟨all, nofun⟩ fun _ _ _ taken before => before.step taken
  have op : cfg.stageOpFor st (s.core.stages st).status.desired = true := backed.desired st
  simp [opMissing, op]

/-- In the program every stage has both operations. -/
theorem run_reconcile_total :
    ∃ cfg, controllerNew (runConfig false 1000 16) = .ok (cfg, runCore) ∧
      ∀ s st rest now, (system cfg).Leads (Sys.start runCore) s →
      s.thread = .reconciling (st :: rest) →
        opMissing cfg s.core st now = false := by
  obtain ⟨cfg, accepted, -⟩ := controllerNew_run false 1000 16 (by decide) (by decide)
  refine ⟨cfg, accepted, (reconcile_total_iff accepted).mpr fun st state _ => ?_⟩
  cases st <;> cases state <;> rfl

/-- One stage is seeded as desired running and has no start operation. -/
def unbackedConfig : ControllerConfig :=
  { runConfig false 1000 16 with
    stages := fun
      | .mediaMtx => ⟨0, 1, 0, false, true⟩
      | .normalize => ⟨1, 0, 0, true, true⟩
      | .scaleAndEgress => ⟨2, 0, 0, true, true⟩
      | .singleStageEgress => ⟨3, 0, 0, true, true⟩ }

/-- The constructor accepts it, and a first pass finds the operation missing. -/
theorem unbacked_reaches_missing :
    ∃ cfg c s rest now, controllerNew unbackedConfig = .ok (cfg, c) ∧
      (system cfg).Leads (Sys.start c) s ∧ s.thread = .reconciling (.mediaMtx :: rest) ∧
      opMissing cfg s.core .mediaMtx now = true := by
  have run : ∃ cfg c s, controllerNew unbackedConfig = .ok (cfg, c) ∧
      (system cfg).exec (Sys.start c) [.requestReconcile true, .dequeue, .dispatch] = some s ∧
      s.thread = .reconciling StageName.all ∧ opMissing cfg s.core .mediaMtx 0 = true :=
    ⟨_, _, _, rfl, rfl, rfl, rfl⟩
  obtain ⟨cfg, c, s, accepted, run, thread, missing⟩ := run
  exact ⟨cfg, c, s, _, 0, accepted, ⟨_, run⟩, thread, missing⟩

end Strimserver.Controller
