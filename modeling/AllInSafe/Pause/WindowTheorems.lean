import AllInSafe.Pause.Lemmas.Truthful
import AllInSafe.Library.SlidingWindow

/-!
# The traffic window of a switched off screen

What the receiver keeps in `trafficdata` against the whole history of its events: the points that it has added since
the last 60 s, over all pending periods.
-/

namespace AllInSafe.Pause
open AllInSafe.Library

/-! ## Histories -/

/-- The time at which the handler of an event runs, where it reads one. -/
def Event.time : Event → Option Int
  | .register now _ _ | .connectivity now _ _ | .screenOff now _ | .screenOn now | .userPause now _ |
      .byteCount now _ _ | .resumeHoldExpires now => some now
  | .accept | .hold | .construct | .delayDisconnectExpires => none

def times (es : List Event) : List Int := es.filterMap Event.time

/-- The clock does not go back. -/
def Clocked (es : List Event) : Prop := (times es).Pairwise (· ≤ ·)

instance : DecidablePred Clocked := fun es => inferInstanceAs (Decidable ((times es).Pairwise (· ≤ ·)))

def Event.Nonnegative : Event → Prop
  | .byteCount _ diffIn diffOut => 0 ≤ diffIn ∧ 0 ≤ diffOut
  | _ => True

instance : DecidablePred Event.Nonnegative
  | .byteCount .. => inferInstanceAs (Decidable (_ ∧ _))
  | .accept | .hold | .construct | .register .. | .connectivity .. | .screenOff .. | .screenOn _ | .userPause .. |
      .delayDisconnectExpires | .resumeHoldExpires _ => .isTrue trivial

/-- The time of a `SCREEN_OFF` that is handled with the preference on. -/
def Event.screenOffTime : Event → Option Int
  | .screenOff now prefs => if prefs.screenoff then some now else none
  | _ => none

def screenOffTimes (es : List Event) : List Int := es.filterMap Event.screenOffTime

/-- The receiver after some events. -/
def handleAll (r : DeviceStateReceiver) (es : List Event) : DeviceStateReceiver :=
  es.foldl (fun r e => (r.handle e).1) r

/-- The differences that are reported to a pending receiver. -/
def DeviceStateReceiver.report (r : DeviceStateReceiver) : Event → List Datapoint
  | .byteCount now diffIn diffOut => if r.screen = .pendingDisconnect then [⟨now, diffIn + diffOut⟩] else []
  | _ => []

def reports (r : DeviceStateReceiver) : List Event → List Datapoint
  | [] => []
  | e :: es => r.report e ++ reports (r.handle e).1 es

/-- The points of the last 60 s. -/
def lastWindow (now : Int) (points : List Datapoint) : List Datapoint :=
  points.filter fun dp => decide (now - TRAFFIC_WINDOW * 1000 < dp.timestamp)

def traffic (points : List Datapoint) : Int := (points.map Datapoint.data).sum

/-- How many of some times are in the last 60 s. -/
def recent (now : Int) (ts : List Int) : Nat := ts.countP fun t => decide (now - TRAFFIC_WINDOW * 1000 < t)

/-! ## What is kept -/

/-- The points that an event adds to `trafficdata`. -/
def DeviceStateReceiver.adds (r : DeviceStateReceiver) (e : Event) : List Datapoint :=
  (e.screenOffTime.toList.map fun now => ⟨now, TRAFFIC_LIMIT⟩) ++
    (r.report e).map fun dp => { dp with data := long dp.data }

def added (r : DeviceStateReceiver) : List Event → List Datapoint
  | [] => []
  | e :: es => r.adds e ++ added (r.handle e).1 es

section
variable {r : DeviceStateReceiver} {as bs es : List Event} {e : Event} {now diffIn diffOut : Int}

theorem handleAll_concat : handleAll r (es ++ [e]) = ((handleAll r es).handle e).1 := by
  simp [handleAll]

theorem added_concat : added r (es ++ [e]) = added r es ++ (handleAll r es).adds e := by
  induction es generalizing r with
  | nil => simp [added, handleAll]
  | cons a es ih => simp [added, ih, handleAll]

theorem times_concat : times (es ++ [e]) = times es ++ e.time.toList := by
  cases htime : e.time <;> simp [times, htime]

/-- The points that an event adds are of its time. -/
theorem adds_sublist_time : ((r.adds e).map Datapoint.timestamp).Sublist e.time.toList := by
  cases e with
  | screenOff now prefs =>
      simp only [DeviceStateReceiver.adds, DeviceStateReceiver.report, Event.screenOffTime, Event.time]
      split_ifs <;> simp
  | byteCount now diffIn diffOut =>
      simp only [DeviceStateReceiver.adds, DeviceStateReceiver.report, Event.screenOffTime, Event.time]
      split_ifs <;> simp
  | _ => simp [DeviceStateReceiver.adds, DeviceStateReceiver.report, Event.screenOffTime]

theorem added_sublist_times : ((added r es).map Datapoint.timestamp).Sublist (times es) := by
  induction es using List.reverseRecOn with
  | nil => simp [added, times]
  | append_singleton es e ih =>
      rw [added_concat, List.map_append, times_concat]
      exact ih.append adds_sublist_time

theorem Clocked.added_sorted (h : Clocked es) :
    (added r es).Pairwise fun a b => a.timestamp ≤ b.timestamp :=
  List.pairwise_map.mp (h.sublist added_sublist_times)

/-- The receiver keeps its points, and its screen is pending only where it was. -/
def Passes (r r' : DeviceStateReceiver) : Prop :=
  r'.trafficdata = r.trafficdata ∧ (r'.screen = .pendingDisconnect → r.screen = .pendingDisconnect)

theorem passes_networkStateChange {prefs : Preferences} {info : Option NetworkInfo} :
    Passes r (r.networkStateChange prefs info).1 := by
  cases info with
  | none =>
      simp only [Passes, DeviceStateReceiver.networkStateChange]
      split_ifs <;> simp
  | some info =>
      simp only [Passes, DeviceStateReceiver.networkStateChange, DeviceStateReceiver.networkConnected]
      split_ifs <;> simp_all

/-- Only a `SCREEN_OFF` and an update concern the window. -/
theorem passes_handle (hoff : ∀ now prefs, e ≠ .screenOff now prefs)
    (hbytes : ∀ now diffIn diffOut, e ≠ .byteCount now diffIn diffOut) (hnew : e ≠ .construct) :
    r.adds e = [] ∧ Passes r (r.handle e).1 := by
  cases e with
  | construct => exact absurd rfl hnew
  | screenOff now prefs => exact absurd rfl (hoff now prefs)
  | byteCount now diffIn diffOut => exact absurd rfl (hbytes now diffIn diffOut)
  | register now prefs info | connectivity now prefs info => exact ⟨rfl, passes_networkStateChange⟩
  | screenOn now =>
      refine ⟨rfl, ?_⟩
      simp only [Passes, DeviceStateReceiver.handle, DeviceStateReceiver.screenOn]
      split_ifs <;> simp
  | userPause now pause =>
      refine ⟨rfl, ?_⟩
      simp only [Passes, DeviceStateReceiver.handle, DeviceStateReceiver.userPause]
      split_ifs <;> simp
  | delayDisconnectExpires =>
      refine ⟨rfl, ?_⟩
      simp only [Passes, DeviceStateReceiver.handle, DeviceStateReceiver.mDelayDisconnectRunnable]
      split_ifs <;> simp_all
  | accept | hold | resumeHoldExpires _ => exact ⟨rfl, rfl, id⟩

theorem trafficdata_screenOff {prefs : Preferences} :
    (r.screenOff now prefs).1.trafficdata = r.trafficdata ++ r.adds (.screenOff now prefs) := by
  simp only [DeviceStateReceiver.screenOff, DeviceStateReceiver.fillTrafficData, DeviceStateReceiver.adds,
    DeviceStateReceiver.report, Event.screenOffTime]
  split_ifs <;> simp [*]

theorem trafficdata_updateByteCount : (r.updateByteCount now diffIn diffOut).1.trafficdata =
    if r.screen = .pendingDisconnect then
      SlidingWindow.prune Datapoint.timestamp (now - TRAFFIC_WINDOW * 1000)
        (r.trafficdata ++ r.adds (.byteCount now diffIn diffOut))
    else r.trafficdata ++ r.adds (.byteCount now diffIn diffOut) := by
  simp only [DeviceStateReceiver.updateByteCount, DeviceStateReceiver.adds, DeviceStateReceiver.report,
    Event.screenOffTime]
  split_ifs <;> simp_all [SlidingWindow.prune]

/-- An update of a pending receiver prunes the window, every other event only adds its points. -/
theorem handle_trafficdata (h : e ≠ .construct) :
    (r.handle e).1.trafficdata = r.trafficdata ++ r.adds e ∨
      ∃ now, e.time = some now ∧ (r.handle e).1.trafficdata =
        SlidingWindow.prune Datapoint.timestamp (now - TRAFFIC_WINDOW * 1000) (r.trafficdata ++ r.adds e) := by
  cases e with
  | byteCount now diffIn diffOut =>
      have hupdate := @trafficdata_updateByteCount r now diffIn diffOut
      split_ifs at hupdate
      · exact .inr ⟨now, rfl, hupdate⟩
      · exact .inl hupdate
  | screenOff now prefs => exact .inl trafficdata_screenOff
  | _ =>
      left
      obtain ⟨hadds, hpoints, -⟩ := @passes_handle r _ (by simp) (by simp) h
      rw [hpoints, hadds, List.append_nil]

/-- The limits of the prunings so far. -/
def limits (es : List Event) : List Int := (times es).map fun now => now - TRAFFIC_WINDOW * 1000

/-- The list is the end of all that has been added, and what has been pruned was too old. -/
theorem holds_trafficdata (h : .construct ∉ es) :
    SlidingWindow.Holds Datapoint.timestamp (limits es) (added {} es) (handleAll {} es).trafficdata := by
  induction es using List.reverseRecOn with
  | nil => exact SlidingWindow.holds_nil
  | append_singleton es e ih =>
      have hes : Event.construct ∉ es := fun hin => h (List.mem_append_left _ hin)
      have he : e ≠ .construct := fun heq => h (by simp [heq])
      have hmore : ∀ t ∈ limits es, t ∈ limits (es ++ [e]) := by
        intro t ht
        simp only [limits, times_concat, List.map_append]
        exact List.mem_append_left _ ht
      have hadded := ((ih hes).mono hmore).append ((handleAll {} es).adds e)
      rw [added_concat, handleAll_concat]
      rcases handle_trafficdata he with hkept | ⟨now, htime, hpruned⟩
      · rw [hkept]
        exact hadded
      · rw [hpruned]
        apply hadded.prune
        simp [limits, times_concat, htime]

/-- While the clock does not go back, an update of a pending receiver keeps the points of the last 60 s. -/
theorem update_trafficdata (hclock : Clocked (es ++ [.byteCount now diffIn diffOut])) (h : .construct ∉ es) :
    SlidingWindow.prune Datapoint.timestamp (now - TRAFFIC_WINDOW * 1000)
        ((handleAll {} es).trafficdata ++ (handleAll {} es).adds (.byteCount now diffIn diffOut)) =
      lastWindow now (added {} (es ++ [.byteCount now diffIn diffOut])) := by
  have hsorted := @Clocked.added_sorted {} _ hclock
  rw [added_concat] at hsorted ⊢
  apply ((holds_trafficdata h).append _).prune_eq hsorted
  intro t ht
  obtain ⟨time, htime, rfl⟩ := List.mem_map.mp ht
  unfold Clocked at hclock
  rw [times_concat] at hclock
  have hle : time ≤ now := (List.pairwise_append.mp hclock).2.2 time htime now (by simp [Event.time])
  omega

/-! ## Sums -/

@[simp] theorem long_add_left {a b : Int} : long (long a + b) = long (a + b) := by simp [long]

@[simp] theorem long_add_right {a b : Int} : long (a + long b) = long (a + b) := by simp [long]

theorem long_of_lt {n : Int} (hlower : 0 ≤ n) (hupper : n < 2 ^ 63) : long n = n := by
  apply Int.bmod_eq_of_le <;> omega

theorem windowtraffic_eq {points : List Datapoint} : windowtraffic points = long (traffic points) := by
  have hfold : ∀ sum, points.foldl (fun sum dp => long (sum + dp.data)) (long sum) = long (sum + traffic points) := by
    induction points with
    | nil => simp [traffic]
    | cons dp points ih =>
        intro sum
        simp only [List.foldl_cons, long_add_left, ih, traffic, List.map_cons, List.sum_cons]
        congr 1
        ring
  have hzero := hfold 0
  rw [zero_add] at hzero
  exact hzero

theorem traffic_append {ps qs : List Datapoint} : traffic (ps ++ qs) = traffic ps + traffic qs := by
  simp [traffic]

theorem lastWindow_append {ps qs : List Datapoint} :
    lastWindow now (ps ++ qs) = lastWindow now ps ++ lastWindow now qs := by
  simp [lastWindow]

theorem recent_append {ts us : List Int} : recent now (ts ++ us) = recent now ts + recent now us := by
  simp [recent]

theorem traffic_seeds {ts : List Int} :
    traffic (lastWindow now (ts.map fun t => ⟨t, TRAFFIC_LIMIT⟩)) = TRAFFIC_LIMIT * recent now ts := by
  induction ts with
  | nil => simp [traffic, lastWindow, recent]
  | cons t ts ih =>
      by_cases ht : now - TRAFFIC_WINDOW * 1000 < t
      · simp only [traffic, lastWindow, recent, List.map_cons, List.filter_cons, ht, decide_true, if_true,
          List.sum_cons, List.countP_cons] at ih ⊢
        rw [ih]
        push_cast
        ring
      · simp only [traffic, lastWindow, recent, List.map_cons, List.filter_cons, ht, decide_false, List.countP_cons,
          Bool.false_eq_true, if_false] at ih ⊢
        simpa using ih

theorem long_traffic_stored {ps : List Datapoint} :
    long (traffic (lastWindow now (ps.map fun dp => { dp with data := long dp.data }))) =
      long (traffic (lastWindow now ps)) := by
  induction ps with
  | nil => rfl
  | cons dp ps ih =>
      by_cases ht : now - TRAFFIC_WINDOW * 1000 < dp.timestamp
      · simp only [traffic, lastWindow, List.map_cons, List.filter_cons, ht, decide_true, if_true, List.sum_cons,
          long_add_left] at ih ⊢
        rw [← long_add_right, ih, long_add_right]
      · simpa only [traffic, lastWindow, List.map_cons, List.filter_cons, ht, decide_false, Bool.false_eq_true,
          if_false] using ih

/-- What is kept of the last 60 s sums to what has been reported in them, with the limit for each `SCREEN_OFF`. -/
theorem long_traffic_added : long (traffic (lastWindow now (added r es))) =
    long (traffic (lastWindow now (reports r es)) + TRAFFIC_LIMIT * recent now (screenOffTimes es)) := by
  induction es generalizing r with
  | nil => rfl
  | cons e es ih =>
      have htimes : screenOffTimes (e :: es) = e.screenOffTime.toList ++ screenOffTimes es := by
        cases h : e.screenOffTime <;> simp [screenOffTimes, h]
      have hevent : long (traffic (lastWindow now (r.adds e))) =
          long (traffic (lastWindow now (r.report e)) + TRAFFIC_LIMIT * recent now e.screenOffTime.toList) := by
        rw [DeviceStateReceiver.adds, lastWindow_append, traffic_append, traffic_seeds, ← long_add_right,
          long_traffic_stored, long_add_right, add_comm]
      rw [added, reports, htimes, recent_append, lastWindow_append, lastWindow_append, traffic_append, traffic_append,
        ← long_add_left, hevent, long_add_left, ← long_add_right, ih, long_add_right]
      congr 1
      push_cast
      ring

/-! ## The screen -/

/-- Only a `SCREEN_OFF` with the preference on makes the screen pending. -/
theorem pending_of_handle (h : (r.handle e).1.screen = .pendingDisconnect) :
    r.screen = .pendingDisconnect ∨ ∃ t, e.screenOffTime = some t := by
  cases e with
  | screenOff now prefs =>
      cases hpref : prefs.screenoff with
      | true => right; exact ⟨now, by simp [Event.screenOffTime, hpref]⟩
      | false => left; simpa [DeviceStateReceiver.handle, DeviceStateReceiver.screenOff, hpref] using h
  | construct => simp [DeviceStateReceiver.handle] at h
  | byteCount now diffIn diffOut =>
      left
      by_contra hnot
      simp [DeviceStateReceiver.handle, DeviceStateReceiver.updateByteCount, hnot] at h
  | _ => exact .inl ((@passes_handle r _ (by simp) (by simp) (by simp)).2.2 h)

theorem screenOffTimes_concat : screenOffTimes (es ++ [e]) = screenOffTimes es ++ e.screenOffTime.toList := by
  cases htime : e.screenOffTime <;> simp [screenOffTimes, htime]

theorem exists_screenOff (h : (handleAll {} es).screen = .pendingDisconnect) :
    ∃ t, (screenOffTimes es).getLast? = some t := by
  have hsome : screenOffTimes es ≠ [] := by
    induction es using List.reverseRecOn with
    | nil => cases h
    | append_singleton es e ih =>
        rw [handleAll_concat] at h
        rw [screenOffTimes_concat]
        rcases pending_of_handle h with hpending | ⟨t, ht⟩
        · simp [ih hpending]
        · simp [ht]
  exact ⟨_, List.getLast?_eq_some_getLast hsome⟩

theorem screenOffTimes_sublist : (screenOffTimes es).Sublist (times es) := by
  induction es using List.reverseRecOn with
  | nil => simp [screenOffTimes, times]
  | append_singleton es e ih =>
      rw [screenOffTimes_concat, times_concat]
      apply ih.append
      cases e with
      | screenOff now prefs =>
          simp only [Event.screenOffTime, Event.time]
          split_ifs <;> simp
      | _ => simp [Event.screenOffTime]

/-- The last `SCREEN_OFF` is 60 s ago when none is in the last 60 s. -/
theorem recent_eq_zero_iff {t : Int} (hclock : Clocked es) (ht : (screenOffTimes es).getLast? = some t) :
    recent now (screenOffTimes es) = 0 ↔ t + TRAFFIC_WINDOW * 1000 ≤ now := by
  have hsorted : (screenOffTimes es).Pairwise (· ≤ ·) := hclock.sublist screenOffTimes_sublist
  obtain ⟨before, hbefore⟩ := List.getLast?_eq_some_iff.mp ht
  rw [hbefore] at hsorted ⊢
  have hlast : ∀ u ∈ before, u ≤ t := fun u hu => (List.pairwise_append.mp hsorted).2.2 u hu t (by simp)
  simp only [recent, List.countP_eq_zero, List.mem_append, List.mem_singleton, decide_eq_true_eq]
  constructor
  · intro h
    have := h t (.inr rfl)
    omega
  · rintro h u (hu | rfl)
    · have := hlast u hu
      omega
    · omega

/-! ## Updates -/

/-- The update moves the screen to `DISCONNECTED`. -/
def DeviceStateReceiver.Moves (r : DeviceStateReceiver) (now diffIn diffOut : Int) : Prop :=
  r.screen ≠ .disconnected ∧ (r.updateByteCount now diffIn diffOut).1.screen = .disconnected

instance : Decidable (r.Moves now diffIn diffOut) := by unfold DeviceStateReceiver.Moves; infer_instance

theorem moves_iff : r.Moves now diffIn diffOut ↔ r.screen = .pendingDisconnect ∧
    windowtraffic (SlidingWindow.prune Datapoint.timestamp (now - TRAFFIC_WINDOW * 1000)
      (r.trafficdata ++ r.adds (.byteCount now diffIn diffOut))) < TRAFFIC_LIMIT := by
  by_cases hpending : r.screen = .pendingDisconnect
  · simp only [DeviceStateReceiver.Moves, DeviceStateReceiver.updateByteCount, DeviceStateReceiver.adds,
      DeviceStateReceiver.report, Event.screenOffTime, hpending, SlidingWindow.prune]
    split_ifs <;> simp_all
  · simp [DeviceStateReceiver.Moves, DeviceStateReceiver.updateByteCount, hpending]

end

/-! ## The window -/

/-- What an update is meant to do after some events of the receiver: it moves the screen exactly when the screen is
pending, the last `SCREEN_OFF` is 60 s ago and the differences reported in the last 60 s are below the limit. -/
def RespectsWindow (es : List Event) (r : DeviceStateReceiver) (now diffIn diffOut : Int) : Prop :=
  r.Moves now diffIn diffOut ↔ r.screen = .pendingDisconnect ∧
    (∃ t, (screenOffTimes es).getLast? = some t ∧ t + TRAFFIC_WINDOW * 1000 ≤ now) ∧
    traffic (lastWindow now (reports {} (es ++ [.byteCount now diffIn diffOut]))) < TRAFFIC_LIMIT

/-- What the window of an update sums: the differences of the last 60 s, and the limit for each `SCREEN_OFF` in
them. -/
def windowSum (es : List Event) (now diffIn diffOut : Int) : Int :=
  traffic (lastWindow now (reports {} (es ++ [.byteCount now diffIn diffOut]))) +
    TRAFFIC_LIMIT * recent now (screenOffTimes es)

section
variable {es : List Event} {s : Watched} {now diffIn diffOut : Int}

theorem receiver_of_run {t : Watched} (hrun : watched.runFrom s es = some t) :
    t.receiver = handleAll s.receiver es ∧ .construct ∉ es := by
  induction es generalizing s with
  | nil => cases hrun; simp [handleAll]
  | cons e es ih =>
      obtain ⟨u, hu, hrest⟩ := Machine.runFrom_cons.mp hrun
      obtain ⟨hreceiver, hnot⟩ := ih hrest
      have he : e ≠ .construct := by rintro rfl; cases hu
      rw [hreceiver, (Watched.step_eq hu).1]
      exact ⟨rfl, by simp [he.symm, hnot]⟩

theorem reports_nonneg {r : DeviceStateReceiver} (h : ∀ e ∈ es, e.Nonnegative) :
    0 ≤ traffic (lastWindow now (reports r es)) := by
  induction es generalizing r with
  | nil => simp [reports, lastWindow, traffic]
  | cons e es ih =>
      obtain ⟨he, hes⟩ := List.forall_mem_cons.mp h
      have hevent : 0 ≤ traffic (lastWindow now (r.report e)) := by
        cases e with
        | byteCount time diffIn diffOut =>
            simp only [Event.Nonnegative] at he
            simp only [DeviceStateReceiver.report, lastWindow]
            split_ifs
            · by_cases ht : now - TRAFFIC_WINDOW * 1000 < time
              · simp [traffic, ht]; omega
              · simp [traffic, ht]
            · simp [traffic]
        | _ => simp [DeviceStateReceiver.report, lastWindow, traffic]
      rw [reports, lastWindow_append, traffic_append]
      have hrest := @ih (r.handle e).1 hes
      omega

/-- While the clock does not go back, a pending receiver moves its screen when the value of the sum as a `long` is
below the limit. -/
theorem moves_iff_of_clocked (hclock : Clocked (es ++ [.byteCount now diffIn diffOut])) (h : .construct ∉ es) :
    (handleAll {} es).Moves now diffIn diffOut ↔
      (handleAll {} es).screen = .pendingDisconnect ∧ long (windowSum es now diffIn diffOut) < TRAFFIC_LIMIT := by
  have hoffs : screenOffTimes (es ++ [.byteCount now diffIn diffOut]) = screenOffTimes es := by
    simp [screenOffTimes_concat, Event.screenOffTime]
  rw [moves_iff, update_trafficdata hclock h, windowtraffic_eq, long_traffic_added, hoffs]
  rfl

/-- What is asked of the last `SCREEN_OFF` and of the differences is that the sum stays below the limit: one
`SCREEN_OFF` in the window is as much as the limit. -/
theorem windowSum_lt_iff {t : Int} (hclock : Clocked es) (ht : (screenOffTimes es).getLast? = some t)
    (htraffic : 0 ≤ traffic (lastWindow now (reports {} (es ++ [.byteCount now diffIn diffOut])))) :
    windowSum es now diffIn diffOut < TRAFFIC_LIMIT ↔ t + TRAFFIC_WINDOW * 1000 ≤ now ∧
      traffic (lastWindow now (reports {} (es ++ [.byteCount now diffIn diffOut]))) < TRAFFIC_LIMIT := by
  rw [← recent_eq_zero_iff hclock ht]
  simp only [windowSum, TRAFFIC_LIMIT]
  omega

/-- In every run whose clock does not go back, an update whose window sums to less than `2 ^ 63` respects the window. -/
theorem window_respected (hrun : watched.runFrom watched.init es = some s)
    (hclock : Clocked (es ++ [.byteCount now diffIn diffOut]))
    (hnonneg : ∀ e ∈ es ++ [.byteCount now diffIn diffOut], e.Nonnegative)
    (hsum : windowSum es now diffIn diffOut < 2 ^ 63) : RespectsWindow es s.receiver now diffIn diffOut := by
  obtain ⟨hreceiver, hnot⟩ := receiver_of_run hrun
  have htraffic := @reports_nonneg _ now {} hnonneg
  have hclock' : Clocked es := by
    unfold Clocked at hclock
    rw [times_concat] at hclock
    exact (List.pairwise_append.mp hclock).1
  have hlong : long (windowSum es now diffIn diffOut) = windowSum es now diffIn diffOut := by
    apply long_of_lt _ hsum
    simp only [windowSum, TRAFFIC_LIMIT]
    omega
  rw [RespectsWindow, hreceiver]
  refine (moves_iff_of_clocked hclock hnot).trans (and_congr_right fun hpending => ?_)
  obtain ⟨t, ht⟩ := exists_screenOff hpending
  rw [hlong, windowSum_lt_iff hclock' ht htraffic]
  simp [ht]

/-- A screen switched off twice, with traffic before and after the second time. -/
def quietRun : List Event :=
  [.connectivity 0 {} (some ⟨1, .connected, some "home"⟩), .screenOff 1000 { screenoff := true },
    .byteCount 30000 40000 30000, .screenOn 40000, .screenOff 41000 { screenoff := true }, .byteCount 90000 70 30]

theorem window_respected_quietRun :
    ∃ s, watched.runFrom watched.init quietRun = some s ∧ s.receiver.Moves 101000 10 20 ∧
      RespectsWindow quietRun s.receiver 101000 10 20 :=
  ⟨_, rfl, by decide, window_respected rfl (by decide) (by decide) (by decide)⟩

/-- A screen switched off on a connected network. -/
def switchedOff : List Event :=
  [.connectivity 0 {} (some ⟨1, .connected, some "home"⟩), .screenOff 1000 { screenoff := true }]

/-- Differences that overflow a `long` move the screen 1 ms after it is switched off. -/
theorem overflow_moves_screen : ∃ s, watched.runFrom watched.init switchedOff = some s ∧
    Clocked (switchedOff ++ [.byteCount 1001 (2 ^ 63 - 1) 1]) ∧
    (∀ e ∈ switchedOff ++ [.byteCount 1001 (2 ^ 63 - 1) 1], e.Nonnegative) ∧
    ¬ RespectsWindow switchedOff s.receiver 1001 (2 ^ 63 - 1) 1 := by
  refine ⟨_, rfl, by decide, by decide, ?_⟩
  intro h
  obtain ⟨-, -, htraffic⟩ := h.mp (by decide)
  exact absurd htraffic (by decide)

end

end AllInSafe.Pause
