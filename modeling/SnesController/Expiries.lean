import SnesController.Conduct
import SnesController.Timers
import SnesController.Library.Countdown

/-!
# What the timers set going

How often each timer has expired is a matter of the ticks and of its restarts alone (`expiries`).
What the main loop has executed of their handlers, and what not, adds up to that (`TimedInv`), and
the calls are those of the handlers executed (`powerOffs_run`, `adcCalls_run`).

`shutdowns_run` and `samplings_run` count the calls that switch the controller off and those that
measure, for every order of ticks, pin changes, events and turns of the main loop, as long as the
timers are started (`TimersStarted`), nothing waits in the scheduler's queue at first, and every
restart of the shutdown timer succeeds (`PinAnswered`). `staysOn_iff` is when the controller stays
on.
-/

namespace SnesController

open EventRun Countdown

variable {sdk : Sdk} {t : TimerSdk} {view : t.Timers → TimerId → TimerView}
  {queue : t.Scheduler → List Task}

/-- What the shutdown timer is told. -/
def shutdownOp : TimedEvt → Option Op
  | .tick => some .tick
  | .pin => some .restart
  | _ => none

/-- What the battery timer is told. -/
def batteryOp : TimedEvt → Option Op
  | .tick => some .tick
  | _ => none

/-! ### The timers -/

/-- What the timer's view is when it is `since` ticks into its periods of `n`. -/
def runningView (task : Task) (n since : ℕ) : TimerView := ⟨some task, some (n, left n since)⟩

/-- One more tick. -/
theorem runningView_tick {n : ℕ} (hn : 0 < n) (task : Task) (since : ℕ) :
    (⟨(runningView task n since).handler,
      (runningView task n since).running.map countDown⟩ : TimerView) =
      runningView task n (since + 1) := by
  simp only [runningView, Option.map_some, countDown]
  rw [left_succ hn]

theorem runningView_expiring {n : ℕ} (hn : 0 < n) (task : Task) (since : ℕ) :
    (runningView task n since).Expiring ↔ n ∣ since + 1 := by
  show some (left n since) = some 1 ↔ _
  rw [Option.some.injEq]
  exact expires_iff hn since

/-- How often a task was put in the scheduler's queue and not executed. -/
def unrun (queue : t.Scheduler → List Task) (s : Timed sdk t) (task : Task) : ℕ :=
  (queue s.scheduler).count task + s.lost.count task

/-- The task that is executed, if one is. -/
def executedBy (s : Timed sdk t) : TimedEvt → List Task
  | .execute => (t.next s.scheduler).1.toList
  | _ => []

/-- The tasks executed so far. -/
def recordTask (log : List Task) (s : Timed sdk t) (e : TimedEvt) (_ : Timed sdk t) : List Task :=
  log ++ executedBy s e

/-- **What the proofs carry**, with what the two timers were told, and the tasks executed. -/
structure TimedInv (view : t.Timers → TimerId → TimerView) (queue : t.Scheduler → List Task)
    (bs ss : List Op) (c : Timed sdk t × List Task) : Prop where
  battery : view c.1.timers .mBatteryTimerId =
    runningView .batteryLevelMeasTimeoutHandler (batteryLevelMeasInterval t) (since bs)
  shutdown : view c.1.timers .mShutdownTimerId =
    runningView .shutdownTimeoutHandler (inactivitySleepDelay t) (since ss)
  shutdowns : c.2.count .shutdownTimeoutHandler + unrun queue c.1 .shutdownTimeoutHandler =
    expiries (inactivitySleepDelay t) ss
  samplings : c.2.count .adcSample + unrun queue c.1 .batteryLevelMeasTimeoutHandler +
    unrun queue c.1 .adcSample = expiries (batteryLevelMeasInterval t) bs

/-! ### The scheduler -/

theorem unrun_schedPut (laws : SchedulerLaws t queue) (s : Timed sdk t) (x y : Task) :
    unrun queue (schedPut s x) y = unrun queue s y + [x].count y := by
  simp only [unrun, schedPut]
  rw [laws.put]
  split_ifs
  · rw [List.count_append]
    omega
  · rw [List.count_append]
    omega

theorem unrun_foldl_schedPut (laws : SchedulerLaws t queue) (tasks : List Task) (s : Timed sdk t)
    (y : Task) : unrun queue (tasks.foldl schedPut s) y = unrun queue s y + tasks.count y := by
  induction tasks generalizing s with
  | nil => rfl
  | cons x tasks ih =>
    rw [List.foldl_cons, ih, unrun_schedPut laws, ← List.singleton_append (l := tasks),
      List.count_append]
    omega

/-- A task is taken from the queue. -/
theorem unrun_next (laws : SchedulerLaws t queue) (s : Timed sdk t) {x : Task}
    (hx : (t.next s.scheduler).1 = some x) (y : Task) :
    unrun queue s y =
      unrun queue { s with scheduler := (t.next s.scheduler).2 } y + [x].count y := by
  rw [laws.head] at hx
  simp only [unrun]
  rw [laws.tail]
  cases hq : queue s.scheduler with
  | nil => rw [hq] at hx; cases hx
  | cons z q =>
    rw [hq, List.head?_cons, Option.some.injEq] at hx
    subst hx
    rw [List.tail_cons, ← List.singleton_append, List.count_append]
    omega

/-! ### One event -/

variable {bs ss : List Op} {s : Timed sdk t} {log : List Task}

/-- A turn of the main loop. -/
theorem TimedInv.execute (laws : SchedulerLaws t queue) (h : TimedInv view queue bs ss (s, log)) :
    TimedInv view queue bs ss (observed timedStep recordTask (s, log) .execute) := by
  obtain ⟨hbattery, hshutdown, hshutdowns, hsamplings⟩ := h
  simp only [observed, timedStep, recordTask, executedBy]
  cases hx : (t.next s.scheduler).1 with
  | none =>
    have hnil : queue s.scheduler = [] := by
      rw [laws.head] at hx
      exact List.head?_eq_none_iff.mp hx
    have hunrun : ∀ y, unrun queue { s with scheduler := (t.next s.scheduler).2 } y =
        unrun queue s y := by
      intro y
      simp only [unrun]
      rw [laws.tail, hnil]
      rfl
    rw [Option.toList_none, List.append_nil]
    refine ⟨hbattery, hshutdown, ?_, ?_⟩
    · rw [hunrun]
      exact hshutdowns
    · rw [hunrun, hunrun]
      exact hsamplings
  | some task =>
    have hnext := unrun_next laws s hx
    generalize hs' : ({ s with scheduler := (t.next s.scheduler).2 } : Timed sdk t) = s' at hnext
    have htimers : s'.timers = s.timers := by rw [← hs']
    dsimp only at hbattery hshutdown hshutdowns hsamplings
    rw [← htimers] at hbattery hshutdown
    rw [hnext] at hshutdowns
    rw [hnext, hnext .adcSample] at hsamplings
    rw [Option.toList_some]
    cases task with
    | batteryLevelMeasTimeoutHandler =>
      have hput := unrun_schedPut laws s' .adcSample
      refine ⟨hbattery, hshutdown, ?_, ?_⟩
      · show _ + unrun queue (schedPut s' .adcSample) _ = _
        rw [hput, List.count_append]
        exact hshutdowns
      · show _ + unrun queue (schedPut s' .adcSample) _ + unrun queue (schedPut s' .adcSample) _ = _
        rw [hput, hput, ← hsamplings, List.count_append]
        show _ + 0 + (_ + 0) + (_ + 1) = _ + (_ + 1) + (_ + 0)
        omega
    | shutdownTimeoutHandler =>
      refine ⟨hbattery, hshutdown, ?_, ?_⟩
      · rw [← hshutdowns, List.count_append]
        show _ + 1 + unrun queue s' .shutdownTimeoutHandler = _ + (_ + 1)
        omega
      · rw [List.count_append]
        exact hsamplings
    | adcSample =>
      obtain ⟨err, adc, heq⟩ := adcSample_eq s'
      simp only [Task.run, heq]
      refine ⟨hbattery, hshutdown, ?_, ?_⟩
      · rw [List.count_append]
        exact hshutdowns
      · rw [← hsamplings, List.count_append]
        show _ + 1 + unrun queue s' .batteryLevelMeasTimeoutHandler + unrun queue s' .adcSample =
          _ + (_ + 0) + (_ + 1)
        omega

/-- The handlers of the timers that expire, counted. -/
theorem count_expiring {v : TimerId → TimerView} {b d sinceB sinceD : ℕ} (hb : 0 < b) (hd : 0 < d)
    (hbattery : v .mBatteryTimerId = runningView .batteryLevelMeasTimeoutHandler b sinceB)
    (hshutdown : v .mShutdownTimerId = runningView .shutdownTimeoutHandler d sinceD) (y : Task) :
    (expiring v).count y =
      [Task.batteryLevelMeasTimeoutHandler].count y * expiriesNext b sinceB .tick +
        [Task.shutdownTimeoutHandler].count y * expiriesNext d sinceD .tick := by
  simp only [expiring, List.filterMap_cons, List.filterMap_nil, hbattery, hshutdown,
    runningView_expiring hb, runningView_expiring hd, expiriesNext]
  split_ifs <;> cases y <;> rfl

/-- A tick of the counter. -/
theorem TimedInv.tick (laws : TimerLaws t view) (sched : SchedulerLaws t queue)
    (h : TimedInv view queue bs ss (s, log)) :
    TimedInv view queue (bs ++ [.tick]) (ss ++ [.tick])
      (observed timedStep recordTask (s, log) .tick) := by
  obtain ⟨hbattery, hshutdown, hshutdowns, hsamplings⟩ := h
  have hb : 0 < batteryLevelMeasInterval t := laws.ticks_pos 60000 (by decide)
  have hd : 0 < inactivitySleepDelay t := laws.ticks_pos 300000 (by decide)
  obtain ⟨sch, lost, hstep⟩ := timedStep_tick s
  have hunrun : ∀ y, unrun queue (timedStep s .tick) y = unrun queue s y +
      ([Task.batteryLevelMeasTimeoutHandler].count y *
          expiriesNext (batteryLevelMeasInterval t) (since bs) .tick +
        [Task.shutdownTimeoutHandler].count y *
          expiriesNext (inactivitySleepDelay t) (since ss) .tick) := by
    intro y
    rw [← count_expiring hb hd hbattery hshutdown, ← (laws.expired s.timers).count_eq y]
    exact unrun_foldl_schedPut sched _ _ y
  simp only [observed, recordTask, executedBy, List.append_nil]
  dsimp only at hshutdowns hsamplings
  refine ⟨?_, ?_, ?_, ?_⟩
  · rw [hstep, since_concat]
    exact (laws.tick _ _).trans (by rw [hbattery, runningView_tick hb]; rfl)
  · rw [hstep, since_concat]
    exact (laws.tick _ _).trans (by rw [hshutdown, runningView_tick hd]; rfl)
  · rw [hunrun, expiries_concat, ← hshutdowns]
    show log.count _ + (_ + (0 * _ + 1 * _)) = _
    omega
  · rw [hunrun, hunrun, expiries_concat, ← hsamplings]
    show log.count _ + (_ + (1 * _ + 0 * _)) + (_ + (0 * _ + 0 * _)) = _
    omega

/-- A change of the wake-up pin. -/
theorem TimedInv.pin (laws : TimerLaws t view) (h : TimedInv view queue bs ss (s, log))
    (hpin : PinAnswered s .pin) :
    TimedInv view queue bs (ss ++ [.restart]) (observed timedStep recordTask (s, log) .pin) := by
  obtain ⟨hbattery, hshutdown, hshutdowns, hsamplings⟩ := h
  obtain ⟨hstop, hstart⟩ := hpin
  have hstopped := laws.stop s.timers .mShutdownTimerId hstop
  have hstarted := laws.start (t.appTimerStop s.timers .mShutdownTimerId).2 .mShutdownTimerId
    (inactivitySleepDelay t) (by rw [hstopped, Function.update_self]) hstart
  rw [hstopped, Function.update_self] at hstarted
  have hview : view (timedStep s .pin).timers =
      Function.update (Function.update (view s.timers) .mShutdownTimerId
        ⟨(view s.timers .mShutdownTimerId).handler, none⟩) .mShutdownTimerId
        ⟨(view s.timers .mShutdownTimerId).handler,
          some (inactivitySleepDelay t, inactivitySleepDelay t)⟩ := hstarted
  simp only [observed, recordTask, executedBy, List.append_nil]
  refine ⟨?_, ?_, ?_, hsamplings⟩
  · rw [hview, Function.update_of_ne (by decide), Function.update_of_ne (by decide)]
    exact hbattery
  · rw [hview, Function.update_self, hshutdown, since_concat]
    simp only [runningView, sinceNext, left_zero]
  · rw [expiries_concat]
    exact hshutdowns

/-- One of the things that happen. -/
theorem TimedInv.step (laws : TimerLaws t view) (sched : SchedulerLaws t queue)
    (h : TimedInv view queue bs ss (s, log)) {e : TimedEvt} (he : PinAnswered s e) :
    TimedInv view queue (bs ++ [e].filterMap batteryOp) (ss ++ [e].filterMap shutdownOp)
      (observed timedStep recordTask (s, log) e) := by
  cases e with
  | input i =>
    show TimedInv view queue (bs ++ []) (ss ++ []) (_, log ++ [])
    rw [List.append_nil, List.append_nil, List.append_nil]
    exact ⟨h.battery, h.shutdown, h.shutdowns, h.samplings⟩
  | tick => exact h.tick laws sched
  | pin =>
    show TimedInv view queue (bs ++ []) (ss ++ [.restart]) _
    rw [List.append_nil]
    exact h.pin laws he
  | execute =>
    show TimedInv view queue (bs ++ []) (ss ++ []) _
    rw [List.append_nil, List.append_nil]
    exact h.execute sched

/-! ### Whole runs -/

variable {link : sdk.Link} {pm : sdk.Pm} {uart : sdk.Uart} {timers : t.Timers}
  {scheduler : t.Scheduler} {adc : t.Adc}

theorem timedBoot_inv (laws : TimerLaws t view) (hstarted : TimersStarted t timers)
    (hempty : queue scheduler = []) :
    TimedInv view queue [] [] (timedBoot link pm uart timers scheduler adc, []) := by
  obtain ⟨h₁, h₂, h₃, h₄⟩ := hstarted
  have hcreated := laws.create _ .mBatteryTimerId .batteryLevelMeasTimeoutHandler h₁
  have hcreated' := laws.create _ .mShutdownTimerId .shutdownTimeoutHandler h₂
  rw [hcreated] at hcreated'
  have hbattery := laws.start _ .mBatteryTimerId (batteryLevelMeasInterval t)
    (by rw [hcreated']; rfl) h₃
  rw [hcreated'] at hbattery
  have hshutdown := laws.start _ .mShutdownTimerId (inactivitySleepDelay t)
    (by rw [hbattery]; rfl) h₄
  rw [hbattery] at hshutdown
  have hview : ∀ id, view (timedBoot link pm uart timers scheduler adc).timers id = _ :=
    congrFun hshutdown
  have hunrun : ∀ x, unrun queue (timedBoot link pm uart timers scheduler adc) x = 0 := by
    intro x
    show (queue scheduler).count x + 0 = 0
    rw [hempty]
    rfl
  refine ⟨?_, ?_, ?_, ?_⟩
  · rw [hview, runningView, since, List.foldl_nil, left_zero]
    rfl
  · rw [hview, runningView, since, List.foldl_nil, left_zero]
    rfl
  · rw [hunrun]
    rfl
  · rw [hunrun, hunrun]
    rfl

/-- **A run keeps the invariant**, with what each timer was told on the way. -/
theorem TimedInv.run (laws : TimerLaws t view) (sched : SchedulerLaws t queue)
    (h : TimedInv view queue bs ss (s, log)) {es : List TimedEvt}
    (hes : Along timedStep PinAnswered s es) :
    TimedInv view queue (bs ++ es.filterMap batteryOp) (ss ++ es.filterMap shutdownOp)
      (EventRun.run (observed timedStep recordTask) (s, log) es) := by
  induction es using List.reverseRecOn with
  | nil =>
    rw [List.filterMap_nil, List.filterMap_nil, List.append_nil, List.append_nil]
    exact h
  | append_singleton es e ih =>
    obtain ⟨hes, he⟩ := along_concat.mp hes
    rw [List.filterMap_append, List.filterMap_append, ← List.append_assoc, ← List.append_assoc,
      run_concat]
    rw [← run_observed_fst recordTask (s, log)] at he
    exact (ih hes).step laws sched he

/-- Of a run in which the pin never changes nothing is asked. -/
theorem along_pinAnswered {es : List TimedEvt} (h : ∀ e ∈ es, e ≠ .pin) :
    Along timedStep PinAnswered s es := by
  have hall : Along timedStep (fun _ e => e ≠ .pin) s es := along_inputs.mpr h
  refine hall.of_inv (I := fun _ => True) (fun _ _ _ _ => trivial) ?_ trivial
  intro s e _ he
  cases e with
  | pin => exact absurd rfl he
  | input i => trivial
  | tick => trivial
  | execute => trivial

/-! ### Switching off and measuring -/

/-- The calls of `sd_power_system_off`. -/
def powerOffs (s : Timed (recording sdk) t) : ℕ :=
  (s.main.linkCalls.map Prod.fst).count .sdPowerSystemOff

/-- How often the advertising came to its end. -/
def idleEvents (es : List TimedEvt) : ℕ :=
  (es.filterMap inputOf).countP fun i => i.evt = .adv .idle

theorem Adds.count {s s' : State (recording sdk)} {xs : List (LinkCall × ErrCode)}
    {ys : List (PmCall × ErrCode)} {es : List ErrCode} (h : Adds s s' xs ys es) (c : LinkCall) :
    (s'.linkCalls.map Prod.fst).count c =
      (s.linkCalls.map Prod.fst).count c + (xs.map Prod.fst).count c := by
  rw [h.link, List.map_append, List.count_append]

/-- An event has the system switched off if it is the end of the advertising. -/
theorem count_linkRequests (s : State sdk) (e : Event) :
    (linkRequests s e).count .sdPowerSystemOff = if e = .adv .idle then 1 else 0 := by
  cases e with
  | ble e =>
    cases e with
    | rwAuthorizeRequest c type op =>
      simp only [linkRequests, authorizeReply]
      split_ifs <;> simp_all
    | _ => simp [linkRequests]
  | pm e => cases e <;> simp [linkRequests]
  | adv e =>
    cases e with
    | peerAddrRequest =>
      simp only [linkRequests, peerAddrReply]
      split_ifs <;> simp_all
    | _ => simp [linkRequests]
  | adc e => cases e <;> simp [linkRequests]
  | uart e | hids e => simp [linkRequests]

theorem count_newLinkCalls (s : State (recording sdk)) (i : Input) :
    ((newLinkCalls s i).map Prod.fst).count .sdPowerSystemOff =
      if i.evt = .adv .idle then 1 else 0 := by
  have hasked := (step_new s i).link
  rw [← count_linkRequests (deliver s i.evt) i.evt, ← hasked]
  exact (List.count_filter (by decide)).symm

/-- **One of the things that happen, and the calls of `sd_power_system_off`**: the task executed
makes one, if it is the shutdown timer's handler, and the end of the advertising makes one. -/
theorem powerOffs_step (s : Timed (recording sdk) t) (e : TimedEvt) :
    powerOffs (timedStep s e) =
      powerOffs s + (executedBy s e).count .shutdownTimeoutHandler + idleEvents [e] := by
  cases e with
  | input i =>
    have hnew := (step_new s.main i).adds.count .sdPowerSystemOff
    rw [count_newLinkCalls] at hnew
    have hidle : idleEvents [.input i] = if i.evt = .adv .idle then 1 else 0 := by
      simp [idleEvents, inputOf, List.countP_cons]
    rw [hidle]
    exact hnew
  | tick =>
    obtain ⟨sch, lost, hstep⟩ := timedStep_tick s
    rw [hstep]
    rfl
  | pin =>
    obtain ⟨r₁, hr₁⟩ : ∃ r, t.appTimerStop s.timers .mShutdownTimerId = r := ⟨_, rfl⟩
    have hall := (appErrorCheck_adds s.main r₁.1).trans (appErrorCheck_adds _
      (t.appTimerStart r₁.2 .mShutdownTimerId (inactivitySleepDelay t)).1)
    subst hr₁
    exact hall.count _
  | execute =>
    simp only [timedStep, executedBy]
    cases (t.next s.scheduler).1 with
    | none => rfl
    | some task =>
      cases task with
      | batteryLevelMeasTimeoutHandler => rfl
      | shutdownTimeoutHandler =>
        obtain ⟨a, hadds⟩ := linkCallChecked_adds s.main .sdPowerSystemOff
        exact hadds.count _
      | adcSample =>
        obtain ⟨err, adc, heq⟩ := adcSample_eq { s with scheduler := (t.next s.scheduler).2 }
        simp only [Task.run, heq]
        exact (appErrorCheck_adds s.main err).count _

theorem idleEvents_append (es fs : List TimedEvt) :
    idleEvents (es ++ fs) = idleEvents es + idleEvents fs := by
  rw [idleEvents, List.filterMap_append, List.countP_append]
  rfl

/-- **A run, and the calls of `sd_power_system_off`.** -/
theorem powerOffs_run (s : Timed (recording sdk) t) (es : List TimedEvt) :
    powerOffs (run timedStep s es) = powerOffs s +
      (run (observed timedStep recordTask) (s, []) es).2.count .shutdownTimeoutHandler +
        idleEvents es := by
  induction es using List.reverseRecOn with
  | nil => rfl
  | append_singleton es e ih =>
    rw [run_concat, run_concat, powerOffs_step, ih, idleEvents_append]
    simp only [observed, recordTask, List.count_append, run_observed_fst]
    omega

/-- The start-up does not switch the controller off. -/
theorem powerOffs_boot (hstarted : TimersStarted t timers) :
    powerOffs (recordedTimedBoot link pm uart timers scheduler adc) = 0 := by
  obtain ⟨a, b, d, hlink, -, -⟩ := boot_asks link pm uart
  have hmain : (recordedTimedBoot link pm uart timers scheduler adc).main =
      recordedBoot link pm uart := timedBoot_main hstarted
  rw [powerOffs, hmain, hlink]
  rfl

/-- The handlers executed, the calls they made, and the expiries. -/
theorem shutdowns_executed (laws : TimerLaws t view) (sched : SchedulerLaws t queue)
    (hstarted : TimersStarted t timers) (hempty : queue scheduler = []) {es : List TimedEvt}
    (hes : Along timedStep PinAnswered (recordedTimedBoot link pm uart timers scheduler adc) es) :
    let s := run timedStep (recordedTimedBoot link pm uart timers scheduler adc) es
    ∃ n, powerOffs s = n + idleEvents es ∧ n + unrun queue s .shutdownTimeoutHandler =
      expiries (inactivitySleepDelay t) (es.filterMap shutdownOp) := by
  have hexpired := ((timedBoot_inv laws hstarted hempty).run laws sched hes).shutdowns
  rw [run_observed_fst, List.nil_append] at hexpired
  have hcalls := powerOffs_run (recordedTimedBoot link pm uart timers scheduler adc) es
  rw [powerOffs_boot hstarted, Nat.zero_add] at hcalls
  exact ⟨_, hcalls, hexpired⟩

/-- **One of the things that happen, and the calls of the ADC driver**: `adc_sample` makes its
calls, if it is executed. -/
theorem adcCalls_step (s : Timed sdk t) (e : TimedEvt) :
    (timedStep s e).adcCalls = s.adcCalls ++
      (List.replicate ((executedBy s e).count .adcSample) sampleCalls).flatten := by
  cases e with
  | input i => exact (List.append_nil _).symm
  | tick =>
    obtain ⟨sch, lost, hstep⟩ := timedStep_tick s
    rw [hstep]
    exact (List.append_nil _).symm
  | pin => exact (List.append_nil _).symm
  | execute =>
    simp only [timedStep, executedBy]
    cases (t.next s.scheduler).1 with
    | none => exact (List.append_nil _).symm
    | some task =>
      cases task with
      | batteryLevelMeasTimeoutHandler | shutdownTimeoutHandler =>
        exact (List.append_nil _).symm
      | adcSample =>
        obtain ⟨err, adc, heq⟩ := adcSample_eq { s with scheduler := (t.next s.scheduler).2 }
        simp only [Task.run, heq]
        simp

/-- **A run, and the calls of the ADC driver.** -/
theorem adcCalls_run (s : Timed sdk t) (es : List TimedEvt) :
    (run timedStep s es).adcCalls = s.adcCalls ++
      (List.replicate ((run (observed timedStep recordTask) (s, []) es).2.count .adcSample)
        sampleCalls).flatten := by
  induction es using List.reverseRecOn with
  | nil => exact (List.append_nil _).symm
  | append_singleton es e ih =>
    rw [run_concat, run_concat, adcCalls_step, ih]
    simp only [observed, recordTask, List.count_append, run_observed_fst, List.replicate_add,
      List.flatten_append, List.append_assoc]

/-- **When the controller switches itself off**: if the timers are started at first and every
restart of the shutdown timer succeeds, the calls of `sd_power_system_off`, with the handlers put
for the main loop and not executed, are as many as the expiries of a timer that every change of the
wake-up pin restarts, and the ends of the advertising. -/
theorem shutdowns_run (laws : TimerLaws t view) (sched : SchedulerLaws t queue)
    (hstarted : TimersStarted t timers) (hempty : queue scheduler = []) {es : List TimedEvt}
    (hes : Along timedStep PinAnswered (recordedTimedBoot link pm uart timers scheduler adc) es) :
    let s := run timedStep (recordedTimedBoot link pm uart timers scheduler adc) es
    powerOffs s + unrun queue s .shutdownTimeoutHandler =
      expiries (inactivitySleepDelay t) (es.filterMap shutdownOp) + idleEvents es := by
  obtain ⟨n, hcalls, hexpired⟩ := shutdowns_executed laws sched hstarted hempty hes
  intro s
  rw [hcalls, ← hexpired]
  exact Nat.add_right_comm n _ _

/-- With the pin never changing, and the main loop never coming to it, one handler is put when
`INACTIVITY_SLEEP_DELAY` has passed. -/
theorem shutdowns_run_unattended :
    let s := run timedStep (recordedTimedBoot (deviceLink 1) (devicePm 1) (deviceUart 1) clockTimers
      clockScheduler clockAdc) (List.replicate (inactivitySleepDelay clock) .tick)
    powerOffs s + unrun clockQueue s .shutdownTimeoutHandler = 1 := by
  have hpin : Along timedStep PinAnswered (recordedTimedBoot (deviceLink 1) (devicePm 1)
      (deviceUart 1) clockTimers clockScheduler clockAdc)
      (List.replicate (inactivitySleepDelay clock) .tick) :=
    along_pinAnswered fun _ he => List.eq_of_mem_replicate he ▸ nofun
  intro s
  have hrun := shutdowns_run clock_laws clock_schedulerLaws ⟨rfl, rfl, rfl, rfl⟩ rfl hpin
  refine Eq.trans hrun ?_
  have htick : shutdownOp .tick = some .tick := rfl
  have hinput : inputOf .tick = none := rfl
  rw [idleEvents, List.filterMap_replicate_of_some htick, expiries_replicate,
    List.filterMap_replicate_of_none hinput]
  exact Nat.div_self (clock_laws.ticks_pos 300000 (by decide))

/-- **When the controller stays on**: if the timers are started at first and every restart of the
shutdown timer succeeds, `sd_power_system_off` is called at the ends of the advertising only, and no
call of it is due, just when there was never a stretch of `INACTIVITY_SLEEP_DELAY` without a change
of the wake-up pin. -/
theorem staysOn_iff (laws : TimerLaws t view) (sched : SchedulerLaws t queue)
    (hstarted : TimersStarted t timers) (hempty : queue scheduler = []) {es : List TimedEvt}
    (hes : Along timedStep PinAnswered (recordedTimedBoot link pm uart timers scheduler adc) es) :
    let s := run timedStep (recordedTimedBoot link pm uart timers scheduler adc) es
    powerOffs s = idleEvents es ∧ unrun queue s .shutdownTimeoutHandler = 0 ↔
      ∀ p, p <+: es → since (p.filterMap shutdownOp) < inactivitySleepDelay t := by
  have hd : 0 < inactivitySleepDelay t := laws.ticks_pos 300000 (by decide)
  obtain ⟨n, hcalls, hexpired⟩ := shutdowns_executed laws sched hstarted hempty hes
  intro s
  rw [hcalls, Nat.add_eq_right, ← Nat.add_eq_zero_iff, hexpired, expiries_eq_zero_iff hd]
  constructor
  · intro h p hp
    exact h _ (hp.filterMap shutdownOp)
  · intro h q hq
    obtain ⟨p, hp, rfl⟩ := List.prefix_filterMap_iff.mp hq
    exact h p hp

/-- A change of the pin, and the advertising comes to its end. -/
theorem staysOn_iff_pressed :
    let es : List TimedEvt := [.tick, .pin, .tick, .input ⟨.adv .idle, .success⟩, .execute]
    let s := run timedStep (recordedTimedBoot (deviceLink 1) (devicePm 1) (deviceUart 1) clockTimers
      clockScheduler clockAdc) es
    powerOffs s = 1 ∧ unrun clockQueue s .shutdownTimeoutHandler = 0 := by
  have hpin : Along timedStep PinAnswered (recordedTimedBoot (deviceLink 1) (devicePm 1)
      (deviceUart 1) clockTimers clockScheduler clockAdc)
      [.tick, .pin, .tick, .input ⟨.adv .idle, .success⟩, .execute] :=
    ⟨trivial, ⟨rfl, rfl⟩, trivial, trivial, trivial, trivial⟩
  refine (staysOn_iff clock_laws clock_schedulerLaws ⟨rfl, rfl, rfl, rfl⟩ rfl hpin).mpr ?_
  intro p hp
  have hle := (since_le_length _).trans ((List.length_filterMap_le shutdownOp p).trans hp.length_le)
  exact Nat.lt_of_le_of_lt hle (by decide)

/-- The battery timer is told of the ticks, and of nothing else. -/
theorem filterMap_batteryOp (es : List TimedEvt) :
    es.filterMap batteryOp = List.replicate (es.count .tick) .tick := by
  induction es with
  | nil => rfl
  | cons e es ih =>
    cases e with
    | tick => simp [batteryOp, ih, List.replicate_succ]
    | input | pin | execute =>
      show es.filterMap batteryOp = _
      simp [ih]

/-- **How often the battery is measured**: if the timers are started at first and every restart of
the shutdown timer succeeds, the calls of the ADC driver are those of `adc_sample`, once for each
full `BATTERY_LEVEL_MEAS_INTERVAL`, whatever happens in between, as soon as the main loop has come
to both the timer's handler and the `adc_sample` it puts in the queue. -/
theorem samplings_run (laws : TimerLaws t view) (sched : SchedulerLaws t queue)
    (hstarted : TimersStarted t timers) (hempty : queue scheduler = []) {es : List TimedEvt}
    (hes : Along timedStep PinAnswered (timedBoot link pm uart timers scheduler adc) es) :
    let s := run timedStep (timedBoot link pm uart timers scheduler adc) es
    ∃ n, s.adcCalls = (List.replicate n sampleCalls).flatten ∧
      n + unrun queue s .batteryLevelMeasTimeoutHandler + unrun queue s .adcSample =
        es.count .tick / batteryLevelMeasInterval t := by
  have hinv := (timedBoot_inv laws hstarted hempty).run laws sched hes
  have hexpired := hinv.samplings
  rw [run_observed_fst, List.nil_append, filterMap_batteryOp, expiries_replicate] at hexpired
  exact ⟨_, adcCalls_run _ es, hexpired⟩

/-- The first minute, with the main loop not yet run. -/
theorem samplings_run_minute :
    let s := run timedStep (timedBoot (deviceLink 1) (devicePm 1) (deviceUart 1) clockTimers
      clockScheduler clockAdc) (List.replicate (batteryLevelMeasInterval clock) .tick)
    ∃ n, s.adcCalls = (List.replicate n sampleCalls).flatten ∧
      n + unrun clockQueue s .batteryLevelMeasTimeoutHandler +
        unrun clockQueue s .adcSample = 1 := by
  have hpin : Along timedStep PinAnswered (timedBoot (deviceLink 1) (devicePm 1) (deviceUart 1)
      clockTimers clockScheduler clockAdc)
      (List.replicate (batteryLevelMeasInterval clock) .tick) :=
    along_pinAnswered fun _ he => List.eq_of_mem_replicate he ▸ nofun
  have hone : (List.replicate (batteryLevelMeasInterval clock) TimedEvt.tick).count .tick /
      batteryLevelMeasInterval clock = 1 := by
    rw [List.count_replicate_self]
    exact Nat.div_self (clock_laws.ticks_pos 60000 (by decide))
  obtain ⟨n, hcalls, hn⟩ :=
    samplings_run clock_laws clock_schedulerLaws ⟨rfl, rfl, rfl, rfl⟩ rfl hpin
  exact ⟨n, hcalls, hn.trans hone⟩

end SnesController
