import SnesController.Recording
import SnesController.Voltage

/-!
# Timers

`my_timers.c` and what it sets going: two repeating timers, one that has the battery measured and
one that switches the controller off. Each change of the wake-up pin restarts the second
(`in_pin_handler` of `my_keypad.c`). A timer that expires puts its handler in the scheduler's queue,
as `battery_level_update` puts `adc_sample` there, and the main loop executes them one by one.

The SDK's timer module and scheduler are parameters like the rest of the SDK. `TimerLaws` and
`SchedulerLaws` are what they promise. The firmware goes on after a call of `sd_power_system_off`,
so the runs here include those that end there.

`timed_main` says that the timers leave the rest of the firmware alone, as long as their calls
succeed and none switches the controller off; `forget_timedRun` that a record of the calls changes
nothing.
-/

namespace SnesController

open EventRun

variable {sdk : Sdk}

/-- The timers. -/
inductive TimerId where
  | mBatteryTimerId
  | mShutdownTimerId
  deriving DecidableEq, Repr

/-- What the scheduler's queue holds: the timers' handlers, and `adc_sample`. -/
inductive Task where
  | batteryLevelMeasTimeoutHandler
  | shutdownTimeoutHandler
  | adcSample
  deriving DecidableEq, Repr

/-- The firmware's calls of the ADC driver. -/
inductive AdcCall where
  | nrfDrvAdcBufferConvert (size : ℕ)
  | sdClockHfclkRequest
  | nrfDrvAdcSample
  deriving DecidableEq, Repr

/-- **The timer module, the scheduler and the ADC driver.** -/
structure TimerSdk where
  Timers : Type
  Scheduler : Type
  Adc : Type
  /-- `app_timer_create`, for a timer in repeated mode. -/
  appTimerCreate : Timers → TimerId → Task → ErrCode × Timers
  appTimerStart : Timers → TimerId → ℕ → ErrCode × Timers
  appTimerStop : Timers → TimerId → ErrCode × Timers
  /-- The counter counts on by one: the handlers of the timers that expire. -/
  tick : Timers → List Task × Timers
  appSchedEventPut : Scheduler → Task → ErrCode × Scheduler
  /-- What `app_sched_execute` takes from the queue. -/
  next : Scheduler → Option Task × Scheduler
  adcCall : Adc → AdcCall → ErrCode × Adc
  /-- `APP_TIMER_TICKS`, of milliseconds and a prescaler. -/
  appTimerTicks : ℕ → ℕ → ℕ

variable {t : TimerSdk}

/-- `APP_TIMER_PRESCALER`. -/
def appTimerPrescaler : ℕ := 0

/-- `BATTERY_LEVEL_MEAS_INTERVAL`. -/
def batteryLevelMeasInterval (t : TimerSdk) : ℕ := t.appTimerTicks 60000 appTimerPrescaler

/-- `INACTIVITY_SLEEP_DELAY`. -/
def inactivitySleepDelay (t : TimerSdk) : ℕ := t.appTimerTicks 300000 appTimerPrescaler

/-- **The firmware with its timers.** -/
structure Timed (sdk : Sdk) (t : TimerSdk) where
  main : State sdk
  timers : t.Timers
  scheduler : t.Scheduler
  adc : t.Adc
  /-- The calls made of the ADC driver, in order. -/
  adcCalls : List AdcCall
  /-- What the scheduler had no room for. -/
  lost : List Task

/-- A call of the timer module whose answer is checked. -/
def timerCallChecked (s : Timed sdk t) (r : ErrCode × t.Timers) : Timed sdk t :=
  { s with main := appErrorCheck s.main r.1, timers := r.2 }

/-- `app_sched_event_put`, its answer not looked at. -/
def schedPut (s : Timed sdk t) (task : Task) : Timed sdk t :=
  let r := t.appSchedEventPut s.scheduler task
  { s with scheduler := r.2, lost := if r.1 = .success then s.lost else s.lost ++ [task] }

/-- `timers_init`. -/
def timersInit (s : Timed sdk t) : Timed sdk t :=
  let s := timerCallChecked s
    (t.appTimerCreate s.timers .mBatteryTimerId .batteryLevelMeasTimeoutHandler)
  timerCallChecked s (t.appTimerCreate s.timers .mShutdownTimerId .shutdownTimeoutHandler)

/-- `timers_start`. -/
def timersStart (s : Timed sdk t) : Timed sdk t :=
  let s := timerCallChecked s
    (t.appTimerStart s.timers .mBatteryTimerId (batteryLevelMeasInterval t))
  timerCallChecked s (t.appTimerStart s.timers .mShutdownTimerId (inactivitySleepDelay t))

/-- `reset_shutdown_timer`. -/
def resetShutdownTimer (s : Timed sdk t) : Timed sdk t :=
  let s := timerCallChecked s (t.appTimerStop s.timers .mShutdownTimerId)
  timerCallChecked s (t.appTimerStart s.timers .mShutdownTimerId (inactivitySleepDelay t))

/-- `in_pin_handler`. -/
def inPinHandler (s : Timed sdk t) : Timed sdk t := resetShutdownTimer s

/-- `battery_level_update`. -/
def batteryLevelUpdate (s : Timed sdk t) : Timed sdk t := schedPut s .adcSample

/-- `battery_level_meas_timeout_handler`. -/
def batteryLevelMeasTimeoutHandler (s : Timed sdk t) : Timed sdk t := batteryLevelUpdate s

/-- `sleep_mode_enter`. -/
def sleepModeEnter (s : State sdk) : State sdk := linkCallChecked s .sdPowerSystemOff

/-- `shutdown_timeout_handler`. -/
def shutdownTimeoutHandler (s : Timed sdk t) : Timed sdk t :=
  { s with main := sleepModeEnter s.main }

/-- A call of the ADC driver. -/
def adcCall (s : Timed sdk t) (c : AdcCall) : ErrCode × Timed sdk t :=
  let r := t.adcCall s.adc c
  (r.1, { s with adc := r.2, adcCalls := s.adcCalls ++ [c] })

/-- `adc_sample`, without the waiting: for the crystal, and for the ADC before each sample. -/
def adcSample (s : Timed sdk t) : Timed sdk t :=
  let r := adcCall s (.nrfDrvAdcBufferConvert adcBufferSize)
  let s := (adcCall { r.2 with main := appErrorCheck r.2.main r.1 } .sdClockHfclkRequest).2
  (List.range adcBufferSize).foldl (fun s _ => (adcCall s .nrfDrvAdcSample).2) s

/-- A task is executed. -/
def Task.run (s : Timed sdk t) : Task → Timed sdk t
  | .batteryLevelMeasTimeoutHandler => SnesController.batteryLevelMeasTimeoutHandler s
  | .shutdownTimeoutHandler => SnesController.shutdownTimeoutHandler s
  | .adcSample => SnesController.adcSample s

/-- What happens: an event, a tick of the counter, a change of the wake-up pin, or a turn of the
main loop's `app_sched_execute`. -/
inductive TimedEvt where
  | input (i : Input)
  | tick
  | pin
  | execute
  deriving DecidableEq, Repr

/-- **One of them.** -/
def timedStep (s : Timed sdk t) : TimedEvt → Timed sdk t
  | .input i => { s with main := step s.main i }
  | .tick => (t.tick s.timers).1.foldl schedPut { s with timers := (t.tick s.timers).2 }
  | .pin => inPinHandler s
  | .execute =>
    let r := t.next s.scheduler
    match r.1 with
    | none => { s with scheduler := r.2 }
    | some task => task.run { s with scheduler := r.2 }

/-- The start-up of `main`, with the timers. -/
def timedBoot (link : sdk.Link) (pm : sdk.Pm) (uart : sdk.Uart) (timers : t.Timers)
    (scheduler : t.Scheduler) (adc : t.Adc) : Timed sdk t :=
  let s := timersInit ⟨.reset link pm uart, timers, scheduler, adc, [], []⟩
  let s := timersStart { s with main := keypadReceiverInit (bufferInit s.main) }
  { s with main := advertisingStart s.main }

/-! ### What the SDK promises -/

/-- A timer, as the timer module has it: its handler, and while it runs its period and what is left
of it. -/
structure TimerView where
  handler : Option Task
  running : Option (ℕ × ℕ)
  deriving DecidableEq

/-- A tick of a timer that runs. -/
def countDown (c : ℕ × ℕ) : ℕ × ℕ := (c.1, if c.2 = 1 then c.1 else c.2 - 1)

/-- The timer expires with the next tick. -/
def TimerView.Expiring (v : TimerView) : Prop := v.running.map Prod.snd = some 1

instance (v : TimerView) : Decidable v.Expiring := inferInstanceAs (Decidable (_ = _))

/-- The handlers of the timers that expire with the next tick. -/
def expiring (view : TimerId → TimerView) : List Task :=
  [TimerId.mBatteryTimerId, .mShutdownTimerId].filterMap fun id =>
    if (view id).Expiring then (view id).handler else none

/-- **The timer module**: a timer that is stopped may be started, and once started it counts down,
again and again. -/
structure TimerLaws (t : TimerSdk) (view : t.Timers → TimerId → TimerView) : Prop where
  create : ∀ ts id task, (t.appTimerCreate ts id task).1 = .success →
    view (t.appTimerCreate ts id task).2 = Function.update (view ts) id ⟨some task, none⟩
  start : ∀ ts id n, (view ts id).running = none → (t.appTimerStart ts id n).1 = .success →
    view (t.appTimerStart ts id n).2 =
      Function.update (view ts) id ⟨(view ts id).handler, some (n, n)⟩
  stop : ∀ ts id, (t.appTimerStop ts id).1 = .success →
    view (t.appTimerStop ts id).2 = Function.update (view ts) id ⟨(view ts id).handler, none⟩
  expired : ∀ ts, (t.tick ts).1.Perm (expiring (view ts))
  tick : ∀ ts id, view (t.tick ts).2 id =
    ⟨(view ts id).handler, (view ts id).running.map countDown⟩
  ticks_pos : ∀ ms, 0 < ms → 0 < t.appTimerTicks ms appTimerPrescaler

/-- **The scheduler**: a queue, which may have no room. -/
structure SchedulerLaws (t : TimerSdk) (queue : t.Scheduler → List Task) : Prop where
  put : ∀ sch task, queue (t.appSchedEventPut sch task).2 =
    if (t.appSchedEventPut sch task).1 = .success then queue sch ++ [task] else queue sch
  head : ∀ sch, (t.next sch).1 = (queue sch).head?
  tail : ∀ sch, queue (t.next sch).2 = (queue sch).tail

/-- The calls of `timers_init` and `timers_start` succeed. -/
def TimersStarted (t : TimerSdk) (timers : t.Timers) : Prop :=
  let r₁ := t.appTimerCreate timers .mBatteryTimerId .batteryLevelMeasTimeoutHandler
  let r₂ := t.appTimerCreate r₁.2 .mShutdownTimerId .shutdownTimeoutHandler
  let r₃ := t.appTimerStart r₂.2 .mBatteryTimerId (batteryLevelMeasInterval t)
  let r₄ := t.appTimerStart r₃.2 .mShutdownTimerId (inactivitySleepDelay t)
  r₁.1 = .success ∧ r₂.1 = .success ∧ r₃.1 = .success ∧ r₄.1 = .success

/-- The calls of `reset_shutdown_timer` succeed, if it is called. -/
def PinAnswered (s : Timed sdk t) : TimedEvt → Prop
  | .pin =>
    let r := t.appTimerStop s.timers .mShutdownTimerId
    r.1 = .success ∧
      (t.appTimerStart r.2 .mShutdownTimerId (inactivitySleepDelay t)).1 = .success
  | _ => True

/-- The calls made succeed, and none switches the controller off. -/
def TimersQuiet (s : Timed sdk t) : TimedEvt → Prop
  | .execute =>
    match (t.next s.scheduler).1 with
    | some .shutdownTimeoutHandler => False
    | some .adcSample => (t.adcCall s.adc (.nrfDrvAdcBufferConvert adcBufferSize)).1 = .success
    | _ => True
  | e => PinAnswered s e

/-- The events among what happens. -/
def inputOf : TimedEvt → Option Input
  | .input i => some i
  | _ => none

/-! ### A timer module to run the firmware on -/

/-- A timer is started, if it is not running. -/
def startTimer (v : TimerId → TimerView) (id : TimerId) (n : ℕ) : TimerId → TimerView :=
  if (v id).running = none then Function.update v id ⟨(v id).handler, some (n, n)⟩ else v

/-- An event is put in a queue with room for `SCHED_QUEUE_SIZE`. -/
def putIfRoom (q : List Task) (task : Task) : ErrCode × List Task :=
  if q.length < 10 then (.success, q ++ [task]) else (.noMem, q)

theorem putIfRoom_snd (q : List Task) (task : Task) :
    (putIfRoom q task).2 = if (putIfRoom q task).1 = .success then q ++ [task] else q := by
  by_cases hlt : q.length < 10
  · rw [putIfRoom, if_pos hlt, if_pos rfl]
  · rw [putIfRoom, if_neg hlt, if_neg nofun]

/-- **A timer module, a scheduler and an ADC driver**: the counter runs at 32768 Hz. -/
def clock : TimerSdk where
  Timers := TimerId → TimerView
  Scheduler := List Task
  Adc := Unit
  appTimerCreate v id task := (.success, Function.update v id ⟨some task, none⟩)
  appTimerStart v id n := (.success, startTimer v id n)
  appTimerStop v id := (.success, Function.update v id ⟨(v id).handler, none⟩)
  tick v := (expiring v, fun id => ⟨(v id).handler, (v id).running.map countDown⟩)
  appSchedEventPut := putIfRoom
  next q := (q.head?, q.tail)
  adcCall _ _ := (.success, ())
  appTimerTicks ms prescaler :=
    (ms * 32768 + (prescaler + 1) * 1000 / 2) / ((prescaler + 1) * 1000)

/-- Its states at first: no timer created, nothing in the queue. -/
def clockTimers : clock.Timers := fun _ : TimerId => (⟨none, none⟩ : TimerView)

def clockScheduler : clock.Scheduler := ([] : List Task)

def clockAdc : clock.Adc := ()

/-- Its timers, and its queue. -/
def clockView : clock.Timers → TimerId → TimerView := fun v : TimerId → TimerView => v

def clockQueue : clock.Scheduler → List Task := fun q : List Task => q

theorem clock_laws : TimerLaws clock clockView where
  create _ _ _ _ := rfl
  start _ _ _ hidle _ := if_pos hidle
  stop _ _ _ := rfl
  expired _ := .refl _
  tick _ _ := rfl
  ticks_pos ms hms := by
    show 0 < (ms * 32768 + 500) / 1000
    exact Nat.div_pos (by omega) (by decide)

theorem clock_schedulerLaws : SchedulerLaws clock clockQueue where
  put := putIfRoom_snd
  head _ := rfl
  tail _ := rfl

/-! ### What a tick and a measurement do -/

/-- The handlers of the timers that expire are put one after the other. -/
theorem foldl_schedPut (tasks : List Task) (s : Timed sdk t) :
    ∃ sch lost, tasks.foldl schedPut s = { s with scheduler := sch, lost := lost } := by
  induction tasks generalizing s with
  | nil => exact ⟨_, _, rfl⟩
  | cons x tasks ih => exact ih (schedPut s x)

/-- A tick changes the timers, and what waits for the main loop. -/
theorem timedStep_tick (s : Timed sdk t) :
    ∃ sch lost, timedStep s .tick =
      { s with timers := (t.tick s.timers).2, scheduler := sch, lost := lost } :=
  foldl_schedPut _ _

/-- The calls of the ADC driver that `adc_sample` makes. -/
def sampleCalls : List AdcCall :=
  .nrfDrvAdcBufferConvert adcBufferSize :: .sdClockHfclkRequest ::
    List.replicate adcBufferSize .nrfDrvAdcSample

theorem foldl_adcCall (c : AdcCall) (l : List ℕ) (s : Timed sdk t) :
    ∃ adc, l.foldl (fun s _ => (adcCall s c).2) s =
      { s with adc := adc, adcCalls := s.adcCalls ++ List.replicate l.length c } := by
  induction l generalizing s with
  | nil => exact ⟨s.adc, by simp⟩
  | cons _ l ih =>
    obtain ⟨adc, heq⟩ := ih (adcCall s c).2
    refine ⟨adc, ?_⟩
    rw [List.foldl_cons, heq]
    simp [adcCall, List.replicate_succ]

/-- **What `adc_sample` does**: it makes its calls, and checks the answer to the first. -/
theorem adcSample_eq (s : Timed sdk t) :
    ∃ err adc, adcSample s =
      { s with
        main := appErrorCheck s.main err, adc := adc, adcCalls := s.adcCalls ++ sampleCalls } := by
  obtain ⟨s₁, hs₁⟩ : ∃ s₁, (adcCall { (adcCall s (.nrfDrvAdcBufferConvert adcBufferSize)).2 with
    main := appErrorCheck s.main (adcCall s (.nrfDrvAdcBufferConvert adcBufferSize)).1 }
    .sdClockHfclkRequest).2 = s₁ := ⟨_, rfl⟩
  obtain ⟨adc, heq⟩ := foldl_adcCall .nrfDrvAdcSample (List.range adcBufferSize) s₁
  refine ⟨(adcCall s (.nrfDrvAdcBufferConvert adcBufferSize)).1, adc, ?_⟩
  have hsample : adcSample s = _ :=
    (congrArg (fun s => (List.range adcBufferSize).foldl
      (fun s _ => (adcCall s .nrfDrvAdcSample).2) s) hs₁).trans heq
  rw [hsample, ← hs₁, List.length_range]
  simp [adcCall, sampleCalls]

/-! ### The firmware without its timers -/

section Main

variable {s : Timed sdk t} {link : sdk.Link} {pm : sdk.Pm} {uart : sdk.Uart} {timers : t.Timers}
  {scheduler : t.Scheduler} {adc : t.Adc}

theorem appErrorCheck_success (s : State sdk) : appErrorCheck s .success = s := rfl

/-- With the timers started the start-up is the one of `boot`. -/
theorem timedBoot_main (hstarted : TimersStarted t timers) :
    (timedBoot link pm uart timers scheduler adc).main = boot link pm uart := by
  obtain ⟨h₁, h₂, h₃, h₄⟩ := hstarted
  simp only [timedBoot, timersInit, timersStart, timerCallChecked, h₁, h₂, h₃, h₄,
    appErrorCheck_success]
  rfl

/-- The timers leave the rest alone. -/
theorem timedStep_main {e : TimedEvt} (he : TimersQuiet s e) :
    (timedStep s e).main = EventRun.run step s.main ([e].filterMap inputOf) := by
  cases e with
  | input i => rfl
  | tick =>
    obtain ⟨sch, lost, hstep⟩ := timedStep_tick s
    rw [hstep]
    rfl
  | pin =>
    obtain ⟨hstop, hstart⟩ := he
    show appErrorCheck (appErrorCheck s.main (t.appTimerStop s.timers .mShutdownTimerId).1)
      (t.appTimerStart (t.appTimerStop s.timers .mShutdownTimerId).2 .mShutdownTimerId
        (inactivitySleepDelay t)).1 = s.main
    rw [hstop, hstart]
    rfl
  | execute =>
    simp only [TimersQuiet] at he
    simp only [timedStep]
    cases hx : (t.next s.scheduler).1 with
    | none => rfl
    | some task =>
      rw [hx] at he
      cases task with
      | batteryLevelMeasTimeoutHandler => rfl
      | shutdownTimeoutHandler => cases he
      | adcSample =>
        show appErrorCheck s.main (t.adcCall s.adc (.nrfDrvAdcBufferConvert adcBufferSize)).1 = _
        rw [he]
        rfl

/-- **The firmware with its timers is the firmware**, until it switches itself off: the events do to
the globals and the rest of the SDK what they do without the timers. -/
theorem timed_main (hstarted : TimersStarted t timers) {es : List TimedEvt}
    (hes : Along timedStep TimersQuiet (timedBoot link pm uart timers scheduler adc) es) :
    (run timedStep (timedBoot link pm uart timers scheduler adc) es).main =
      run step (boot link pm uart) (es.filterMap inputOf) := by
  rw [← timedBoot_main hstarted]
  induction es using List.reverseRecOn with
  | nil => rfl
  | append_singleton es e ih =>
    obtain ⟨hes, he⟩ := along_concat.mp hes
    rw [run_concat, timedStep_main he, ih hes, List.filterMap_append, run_append]

end Main

/-! ### The record of the calls -/

section Map

variable {a b : Sdk}

/-- The firmware with its timers, on the second SDK. -/
def Timed.map (f : SdkMap a b) (s : Timed a t) : Timed b t :=
  ⟨s.main.map f, s.timers, s.scheduler, s.adc, s.adcCalls, s.lost⟩

theorem foldl_schedPut_map (f : SdkMap a b) (tasks : List Task) (s : Timed a t) :
    tasks.foldl schedPut (s.map f) = (tasks.foldl schedPut s).map f := by
  induction tasks generalizing s with
  | nil => rfl
  | cons x tasks ih => exact ih (schedPut s x)

theorem adcSample_map (f : SdkMap a b) (s : Timed a t) :
    adcSample (s.map f) = (adcSample s).map f := by
  have hfold : ∀ (l : List ℕ) (s : Timed a t),
      l.foldl (fun s _ => (adcCall s .nrfDrvAdcSample).2) (s.map f) =
        (l.foldl (fun s _ => (adcCall s .nrfDrvAdcSample).2) s).map f := by
    intro l
    induction l with
    | nil => exact fun _ => rfl
    | cons _ l ih => exact fun s => ih (adcCall s .nrfDrvAdcSample).2
  let r := adcCall s (.nrfDrvAdcBufferConvert adcBufferSize)
  exact hfold (List.range adcBufferSize)
    (adcCall { r.2 with main := appErrorCheck r.2.main r.1 } .sdClockHfclkRequest).2

theorem timedStep_map (f : SdkMap a b) (s : Timed a t) (e : TimedEvt) :
    timedStep (s.map f) e = (timedStep s e).map f := by
  cases e with
  | input i =>
    show Timed.mk (step (s.main.map f) i) _ _ _ _ _ = _
    rw [step_map]
    rfl
  | tick => exact foldl_schedPut_map f _ { s with timers := (t.tick s.timers).2 }
  | pin => rfl
  | execute =>
    simp only [timedStep]
    rw [show (s.map f).scheduler = s.scheduler from rfl]
    cases (t.next s.scheduler).1 with
    | none => rfl
    | some task =>
      cases task with
      | batteryLevelMeasTimeoutHandler => rfl
      | shutdownTimeoutHandler =>
        show Timed.mk (linkCallChecked (s.main.map f) .sdPowerSystemOff) _ _ _ _ _ = _
        rw [linkCallChecked_map]
        rfl
      | adcSample => exact adcSample_map f { s with scheduler := (t.next s.scheduler).2 }

theorem timedBoot_map (f : SdkMap a b) (link : a.Link) (pm : a.Pm) (uart : a.Uart)
    (timers : t.Timers) (scheduler : t.Scheduler) (adc : t.Adc) :
    timedBoot (f.link link) (f.pm pm) (f.uart uart) timers scheduler adc =
      (timedBoot link pm uart timers scheduler adc).map f := by
  have hreceiver : ∀ s : Timed a t,
      timersStart { s.map f with main := keypadReceiverInit (bufferInit (s.map f).main) } =
        (timersStart { s with main := keypadReceiverInit (bufferInit s.main) }).map f :=
    fun s => congrArg (fun m => timersStart { s.map f with main := m })
      (keypadReceiverInit_map f s.main)
  have hadvertising : ∀ s : Timed a t, { s.map f with main := advertisingStart (s.map f).main } =
      ({ s with main := advertisingStart s.main } : Timed a t).map f :=
    fun s => congrArg (fun m => { s.map f with main := m }) (advertisingStart_map f s.main)
  simp only [timedBoot]
  rw [reset_map, ← hadvertising, ← hreceiver]
  rfl

end Map

/-- The start-up of `main`, with the timers and a record of the calls. -/
def recordedTimedBoot (link : sdk.Link) (pm : sdk.Pm) (uart : sdk.Uart) (timers : t.Timers)
    (scheduler : t.Scheduler) (adc : t.Adc) : Timed (recording sdk) t :=
  @timedBoot (recording sdk) t (link, []) (pm, []) (uart, []) timers scheduler adc

/-- **The record changes nothing**: the run on the recording SDK is the run on `sdk`. -/
theorem forget_timedRun (link : sdk.Link) (pm : sdk.Pm) (uart : sdk.Uart) (timers : t.Timers)
    (scheduler : t.Scheduler) (adc : t.Adc) (es : List TimedEvt) :
    (run timedStep (recordedTimedBoot link pm uart timers scheduler adc) es).map (forget sdk) =
      run timedStep (timedBoot link pm uart timers scheduler adc) es := by
  rw [run_map (fun s e => (timedStep_map (forget sdk) s e).symm)]
  exact congrArg (run timedStep · es) (timedBoot_map (forget sdk)
    (link, ([] : List (LinkCall × ErrCode))) (pm, []) (uart, []) timers scheduler adc).symm

end SnesController
