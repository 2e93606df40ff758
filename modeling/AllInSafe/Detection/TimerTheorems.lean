import AllInSafe.Detection.CustomVpnService
import Mathlib.Tactic.Common

/-!
# A timer ends its own session
-/

namespace AllInSafe.Detection
open AllInSafe.Library

namespace CustomVpnService

variable {s s' : CustomVpnService}

/-- Each timer that has called `stopVpn` has closed its own interface, after the full capture unless packets had
completed the session, and none has called `spoofingEnd` while a later session had an interface. -/
def EndsOwn (s : CustomVpnService) : Prop :=
  (∀ e ∈ s.timerStops, e.vpnInterface = some e.session ∧ (e.completed = false → 5000 ≤ e.captured)) ∧
    ∀ e ∈ s.timerEnds, ∀ session ∈ e.vpnInterface, session = e.session

/-- A start request is handled only when no timer is left that `startVpnSafely` would have to cancel, a stop request not
between the test of a timer and its `stopVpn`, and no other timer makes its test there. -/
def Undisturbed (s : CustomVpnService) : VpnEvent → Prop
  | .start _ => s.timers = [] ∧ s.expired = [] ∧ s.ending = []
  | .stop => s.expired = []
  | .timeout _ => s.isCapturing = true → s.expired = []
  | _ => True

instance (s : CustomVpnService) (e : VpnEvent) : Decidable (s.Undisturbed e) := by
  cases e <;> simp only [Undisturbed] <;> infer_instance

instance (s : CustomVpnService) : Decidable s.EndsOwn :=
  inferInstanceAs (Decidable ((∀ e ∈ s.timerStops, _) ∧ ∀ e ∈ s.timerEnds, ∀ session ∈ e.vpnInterface, _))

/-- The timer has made its test, and its interface is still there. -/
structure Expiring (s : CustomVpnService) (timer : Timer) : Prop where
  expired : s.expired = [⟨timer, false, false⟩]
  own : s.vpnInterface = some timer.session
  full : s.completed = false → s.isCapturing = true ∧ timer.deadline = s.capturedSince + 5000 ∧ timer.deadline ≤ s.now

/-- The invariant of the runs. -/
structure Timed (s : CustomVpnService) : Prop where
  endsOwn : s.EndsOwn
  /-- No timer is of an earlier session. -/
  timer_session : ∀ timer ∈ s.timers, timer.session + 1 = s.nextSession
  ending_session : ∀ timer ∈ s.ending, timer.session + 1 = s.nextSession
  interface_session : ∀ session ∈ s.vpnInterface, session + 1 = s.nextSession
  capturing : s.isCapturing = true → s.vpnInterface.isSome
  expired : s.expired = [] ∨ ∃ timer, s.Expiring timer
  /-- A session that packets have not completed has at most the timer of its capture. -/
  single : s.completed = false → ∀ timer ∈ s.timers, s.vpnInterface = some timer.session →
    s.isCapturing = true ∧ timer.deadline = s.capturedSince + 5000

theorem timed_init : customVpnService.init.Timed := by
  constructor <;> simp [customVpnService, EndsOwn]

/-! ## Requests -/

theorem Timed.stop (h : s.Timed) (hexpired : s.expired = []) : s.stopTimer.stopVpn.Timed := by
  have hkept : ∀ timer ∈ s.stopTimer.timers, timer ∈ s.timers := fun timer ht => (List.mem_filter.mp ht).1
  constructor
  case endsOwn => exact h.endsOwn
  case timer_session => exact fun timer ht => h.timer_session timer (hkept timer ht)
  case ending_session => exact fun timer ht => h.ending_session timer (List.mem_filter.mp ht).1
  case expired => simp [stopVpn, stopPacketCapture, stopTimer, hexpired]
  all_goals simp [stopVpn, stopPacketCapture]

theorem Timed.startVpnSafely {established : Bool} (h : s.Timed) (htimers : s.timers = []) (hexpired : s.expired = [])
    (hending : s.ending = []) : (s.startVpnSafely established).Timed := by
  cases established with
  | false =>
      constructor
      case endsOwn => exact h.endsOwn
      all_goals simp [CustomVpnService.startVpnSafely, onDestroy, stopVpn, stopPacketCapture, hexpired]
  | true =>
      constructor
      case endsOwn => exact h.endsOwn
      all_goals simp [CustomVpnService.startVpnSafely, stopVpn, stopPacketCapture, htimers, hexpired, hending]

/-! ## Captures -/

theorem Timed.startPacketCapture (h : s.Timed) : s.startPacketCapture.Timed := by
  unfold CustomVpnService.startPacketCapture
  cases hinterface : s.vpnInterface with
  | none => exact h
  | some session =>
      simp only
      split_ifs with hcapturing
      · exact h
      have hsession := h.interface_session session hinterface
      constructor
      case endsOwn => exact h.endsOwn
      case timer_session => exact List.forall_mem_cons.mpr ⟨hsession, h.timer_session⟩
      case ending_session => exact h.ending_session
      case interface_session => exact hinterface ▸ h.interface_session
      case capturing => exact fun _ => rfl
      case expired =>
        refine h.expired.imp_right fun ⟨timer, hexpired, hown, hfull⟩ => ⟨timer, hexpired, hinterface ▸ hown, ?_⟩
        exact fun hcompleted => absurd (hfull hcompleted).1 hcapturing
      case single =>
        intro hcompleted timer htimer hown
        rcases List.mem_cons.mp htimer with rfl | htimer
        · exact ⟨rfl, rfl⟩
        · exact absurd (h.single hcompleted timer htimer (hinterface.trans hown)).1 hcapturing

theorem Timed.checkIfAllCompleted (h : s.Timed) : s.checkIfAllCompleted.Timed := by
  constructor
  case endsOwn => exact h.endsOwn
  case timer_session => exact h.timer_session
  case ending_session => exact h.ending_session
  case interface_session => exact h.interface_session
  case expired => exact h.expired.imp_right fun ⟨timer, hexpired, hown, _⟩ => ⟨timer, hexpired, hown, by rintro ⟨⟩⟩
  all_goals simp [CustomVpnService.checkIfAllCompleted]

theorem Timed.elapse (h : s.Timed) (ms : Nat) : Timed { s with now := s.now + ms } where
  endsOwn := h.endsOwn
  timer_session := h.timer_session
  ending_session := h.ending_session
  interface_session := h.interface_session
  capturing := h.capturing
  expired := h.expired.imp_right fun ⟨timer, hexpired, hown, hfull⟩ => ⟨timer, hexpired, hown, fun hcompleted =>
    have h := hfull hcompleted
    ⟨h.1, h.2.1, Nat.le_add_right_of_le h.2.2⟩⟩
  single := h.single

/-! ## Timers -/

theorem Timed.own (h : s.Timed) (hcapturing : s.isCapturing = true) {timer : Timer} (htimer : timer ∈ s.timers) :
    s.vpnInterface = some timer.session := by
  obtain ⟨session, hsession⟩ := Option.isSome_iff_exists.mp (h.capturing hcapturing)
  have hcurrent := h.interface_session session hsession
  have hown := h.timer_session timer htimer
  rw [hsession, Option.some.injEq]
  omega

theorem Timed.timeout {timer : Timer} (h : s.Timed) (htimer : timer ∈ s.timers) (hdue : timer.deadline ≤ s.now)
    (halone : s.isCapturing = true → s.expired = []) : (s.timeout timer).Timed := by
  have hkept : ∀ other ∈ s.timers.erase timer, other ∈ s.timers := fun other => List.mem_of_mem_erase
  have herased : Timed { s with timers := s.timers.erase timer } :=
    ⟨h.endsOwn, fun other ho => h.timer_session other (hkept other ho), h.ending_session, h.interface_session,
      h.capturing, h.expired.imp_right fun ⟨other, he⟩ => ⟨other, he.expired, he.own, he.full⟩,
      fun hcompleted other ho => h.single hcompleted other (hkept other ho)⟩
  unfold CustomVpnService.timeout
  simp only
  split_ifs with hcapturing
  · have hown := h.own hcapturing htimer
    refine ⟨herased.endsOwn, herased.timer_session, herased.ending_session, herased.interface_session,
      herased.capturing, .inr ⟨timer, ?_, hown, fun hcompleted => ?_⟩, herased.single⟩
    · simp [halone hcapturing]
    · exact ⟨hcapturing, (h.single hcompleted timer htimer hown).2, hdue⟩
  · exact herased

theorem Timed.timeoutStop {e : ExpiredTimer} (h : s.Timed) (he : e ∈ s.expired) : (s.timeoutStop e).Timed := by
  rcases h.expired with hnone | ⟨timer, hexpired, hown, hfull⟩
  · rw [hnone] at he
    cases he
  obtain rfl : e = ⟨timer, false, false⟩ := by
    rw [hexpired] at he
    exact List.mem_singleton.mp he
  have hsession := h.interface_session timer.session hown
  constructor
  case endsOwn =>
    refine ⟨List.forall_mem_cons.mpr ⟨⟨hown, fun hcompleted => ?_⟩, h.endsOwn.1⟩, h.endsOwn.2⟩
    obtain ⟨-, hdeadline, hdue⟩ := hfull hcompleted
    change 5000 ≤ s.now - s.capturedSince
    omega
  case timer_session => exact h.timer_session
  case ending_session => exact List.forall_mem_cons.mpr ⟨hsession, h.ending_session⟩
  case expired => simp [CustomVpnService.timeoutStop, hexpired]
  all_goals simp [CustomVpnService.timeoutStop, stopVpn, stopPacketCapture]

theorem Timed.timeoutEnd {timer : Timer} (h : s.Timed) (htimer : timer ∈ s.ending) : (s.timeoutEnd timer).Timed := by
  constructor
  case endsOwn =>
    refine ⟨h.endsOwn.1, List.forall_mem_cons.mpr ⟨fun session hsession => ?_, h.endsOwn.2⟩⟩
    have hcurrent := h.interface_session session hsession
    have hown := h.ending_session timer htimer
    change session = timer.session
    omega
  case timer_session => exact h.timer_session
  case ending_session => exact fun other ho => h.ending_session other (List.mem_of_mem_erase ho)
  case interface_session => exact h.interface_session
  case capturing => exact h.capturing
  case expired => exact h.expired.imp_right fun ⟨other, he⟩ => ⟨other, he.expired, he.own, he.full⟩
  case single => exact h.single

/-! ## Runs -/

theorem Timed.handle {e : VpnEvent} (h : s.Timed) (hgood : s.Undisturbed e) (hs : s.handle e = some s') : s'.Timed := by
  cases e with
  | start established => cases hs; exact h.startVpnSafely hgood.1 hgood.2.1 hgood.2.2
  | stop => cases hs; exact h.stop hgood
  | captureStart =>
      cases hstarts : s.captureStarts with
      | nil => simp [CustomVpnService.handle, hstarts] at hs
      | cons due later =>
          simp only [CustomVpnService.handle, hstarts, Option.ite_none_right_eq_some, Option.some.injEq] at hs
          obtain ⟨_, rfl⟩ := hs
          have htaken : Timed { s with captureStarts := later } :=
            ⟨h.endsOwn, h.timer_session, h.ending_session, h.interface_session, h.capturing,
              h.expired.imp_right fun ⟨timer, he⟩ => ⟨timer, he.expired, he.own, he.full⟩, h.single⟩
          exact htaken.startPacketCapture
  | timeout timer =>
      simp only [CustomVpnService.handle, Option.ite_none_right_eq_some, Option.some.injEq] at hs
      obtain ⟨⟨htimer, hdue⟩, rfl⟩ := hs
      exact h.timeout htimer hdue hgood
  | timeoutStop e =>
      simp only [CustomVpnService.handle, Option.ite_none_right_eq_some, Option.some.injEq] at hs
      obtain ⟨he, rfl⟩ := hs
      exact h.timeoutStop he
  | timeoutEnd timer =>
      simp only [CustomVpnService.handle, Option.ite_none_right_eq_some, Option.some.injEq] at hs
      obtain ⟨htimer, rfl⟩ := hs
      exact h.timeoutEnd htimer
  | completion => cases hs; exact h.checkIfAllCompleted
  | elapse ms => cases hs; exact h.elapse ms

/-- A session that ends after its five seconds, and a second one that packets complete while its timer expires. -/
def twoSessions : List VpnEvent :=
  [.start true, .elapse 300, .captureStart, .elapse 5000, .timeout ⟨0, 0, 5300⟩,
    .timeoutStop ⟨⟨0, 0, 5300⟩, false, false⟩, .timeoutEnd ⟨0, 0, 5300⟩, .start true, .elapse 300, .captureStart,
    .elapse 5000, .timeout ⟨1, 1, 10600⟩, .completion, .timeoutStop ⟨⟨1, 1, 10600⟩, false, false⟩, .stop]

end CustomVpnService

end AllInSafe.Detection
