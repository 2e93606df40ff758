import AllInSafe.Library.Outcome
import AllInSafe.Routes.Lemmas.Runs

/-!
# What one iteration does in either build

Here the nets may be any: in a release build no assertion stops the loop.
-/

namespace AllInSafe.Routes
open AllInSafe.Library

/-- The states after an iteration that no assertion stops. -/
inductive Iterates (debug : Bool) (currentNet : IpAddress) (networks ipsDone : List IpAddress) :
    Option IpAddress → Generation → Prop
  | finish {nextNet : Option IpAddress}
      (hafter : ∀ n, nextNet = some n → currentNet.getLastAddress < n.getFirstAddress) :
      Iterates debug currentNet networks ipsDone nextNet
        ⟨.ofPoll nextNet, networks, treeSetAdd currentNet ipsDone⟩
  | forgetCurrent {nextNet : IpAddress} (hoverlap : nextNet.getFirstAddress ≤ currentNet.getLastAddress)
      (hbase : sameBase currentNet nextNet = true) (hincluded : currentNet.included = nextNet.included) :
      Iterates debug currentNet networks ipsDone (some nextNet) ⟨.loop nextNet, networks, ipsDone⟩
  | splitNext {nextNet : IpAddress} (hoverlap : nextNet.getFirstAddress ≤ currentNet.getLastAddress)
      (hbase : sameBase currentNet nextNet = true) (hincluded : currentNet.included ≠ nextNet.included)
      (hsplit : debug = true → nextNet.secondHalf.getLastAddress = nextNet.getLastAddress) :
      Iterates debug currentNet networks ipsDone (some nextNet)
        ⟨.loop currentNet, afterSplit currentNet nextNet networks, ipsDone⟩
  | dropNext {nextNet : IpAddress} (hoverlap : nextNet.getFirstAddress ≤ currentNet.getLastAddress)
      (hbase : sameBase currentNet nextNet = false)
      (hfirst : debug = true → currentNet.getFirstAddress < nextNet.getFirstAddress)
      (hincluded : currentNet.included = nextNet.included) :
      Iterates debug currentNet networks ipsDone (some nextNet) ⟨.loop currentNet, networks, ipsDone⟩
  | splitCurrent {nextNet : IpAddress} (hoverlap : nextNet.getFirstAddress ≤ currentNet.getLastAddress)
      (hbase : sameBase currentNet nextNet = false)
      (hfirst : debug = true → currentNet.getFirstAddress < nextNet.getFirstAddress)
      (hincluded : currentNet.included ≠ nextNet.included)
      (hsplit : debug = true → currentNet.secondHalf.getLastAddress = currentNet.getLastAddress) :
      Iterates debug currentNet networks ipsDone (some nextNet)
        ⟨.loop currentNet.firstHalf, withSecondHalf currentNet nextNet networks, ipsDone⟩

section

variable {debug debug' : Bool} {currentNet : IpAddress} {networks ipsDone : List IpAddress}
  {nextNet : Option IpAddress} {s s' : Generation}

/-! ## The body of the loop -/

theorem of_assertTrue {f : Bool} {u : Unit} (h : assertTrue debug f = .ok u) (hdebug : debug = true) : f = true := by
  rw [assertTrue, hdebug, Bool.true_and] at h
  cases f with
  | true => rfl
  | false => cases h

theorem assertTrue_release (f : Bool) : assertTrue false f = .ok () := by
  rw [assertTrue, Bool.false_and]
  rfl

theorem IpAddress.of_split {n : IpAddress} {halves : IpAddress × IpAddress} (h : n.split debug = .ok halves) :
    halves = (n.firstHalf, n.secondHalf) ∧ (debug = true → n.secondHalf.getLastAddress = n.getLastAddress) := by
  obtain ⟨u, hassert, hhalves⟩ := bind_eq_ok.mp h
  cases hhalves
  exact ⟨rfl, fun hdebug => of_decide_eq_true (of_assertTrue hassert hdebug)⟩

theorem of_splitNext {c n : IpAddress} {l : List IpAddress} (h : splitNext debug c n networks = .ok l) :
    l = afterSplit c n networks ∧ (debug = true → n.secondHalf.getLastAddress = n.getLastAddress) := by
  obtain ⟨halves, hsplit, h⟩ := bind_eq_ok.mp h
  obtain ⟨rfl, hlast⟩ := IpAddress.of_split hsplit
  refine ⟨?_, hlast⟩
  rw [afterSplit]
  dsimp only at h
  split at h
  · rename_i hcurrent
    obtain ⟨u, -, hl⟩ := bind_eq_ok.mp h
    cases hl
    rw [if_pos hcurrent]
  · rename_i hcurrent
    cases h
    rw [if_neg hcurrent]

theorem of_splitCurrent {c n : IpAddress} {p : IpAddress × List IpAddress}
    (h : splitCurrent debug c n networks = .ok p) : p = (c.firstHalf, withSecondHalf c n networks) ∧
      (debug = true → c.secondHalf.getLastAddress = c.getLastAddress) := by
  obtain ⟨halves, hsplit, h⟩ := bind_eq_ok.mp h
  obtain ⟨rfl, hlast⟩ := IpAddress.of_split hsplit
  refine ⟨?_, hlast⟩
  rw [withSecondHalf]
  dsimp only at h
  split at h
  · rename_i hmask
    obtain ⟨u, -, h⟩ := bind_eq_ok.mp h
    obtain ⟨u', -, hp⟩ := bind_eq_ok.mp h
    cases hp
    rw [if_pos hmask]
  · rename_i hmask
    cases h
    rw [if_neg hmask]

theorem body_iterates (h : body debug currentNet nextNet networks ipsDone = .ok s) :
    Iterates debug currentNet networks ipsDone nextNet s := by
  cases nextNet with
  | none =>
      cases h
      exact @Iterates.finish _ _ _ _ none fun n hn => by cases hn
  | some n =>
      rw [body] at h
      split at h
      · rename_i hoverlap
        cases h
        rw [overlaps, Bool.not_not, decide_eq_true_eq] at hoverlap
        refine @Iterates.finish _ _ _ _ (some n) fun m hm => ?_
        cases hm
        exact hoverlap
      · rename_i hoverlap
        rw [overlaps, Bool.not_not, decide_eq_true_eq, Nat.not_lt] at hoverlap
        split at h
        · rename_i hbase
          split at h
          · rename_i hincluded
            cases h
            exact .forgetCurrent hoverlap hbase hincluded
          · rename_i hincluded
            obtain ⟨l, hnext, hs⟩ := bind_eq_ok.mp h
            obtain ⟨rfl, hsplit⟩ := of_splitNext hnext
            cases hs
            exact .splitNext hoverlap hbase hincluded hsplit
        · rename_i hbase
          rw [Bool.not_eq_true] at hbase
          obtain ⟨_, -, h⟩ := bind_eq_ok.mp h
          obtain ⟨_, hassert, h⟩ := bind_eq_ok.mp h
          obtain ⟨_, -, h⟩ := bind_eq_ok.mp h
          have hfirst : debug = true → currentNet.getFirstAddress < n.getFirstAddress :=
            fun hdebug => of_decide_eq_true (of_assertTrue hassert hdebug)
          split at h
          · rename_i hincluded
            cases h
            exact .dropNext hoverlap hbase hfirst hincluded
          · rename_i hincluded
            obtain ⟨p, hcurrent, hs⟩ := bind_eq_ok.mp h
            obtain ⟨rfl, hsplit⟩ := of_splitCurrent hcurrent
            cases hs
            exact .splitCurrent hoverlap hbase hfirst hincluded hsplit

/-- The build makes no difference, as long as no assertion fails. -/
theorem Iterates.unique (h : Iterates debug currentNet networks ipsDone nextNet s)
    (h' : Iterates debug' currentNet networks ipsDone nextNet s') : s = s' := by
  cases h with
  | finish hafter =>
      cases h' with
      | finish => rfl
      | forgetCurrent hoverlap => exact absurd (hafter _ rfl) (not_lt_of_ge hoverlap)
      | splitNext hoverlap => exact absurd (hafter _ rfl) (not_lt_of_ge hoverlap)
      | dropNext hoverlap => exact absurd (hafter _ rfl) (not_lt_of_ge hoverlap)
      | splitCurrent hoverlap => exact absurd (hafter _ rfl) (not_lt_of_ge hoverlap)
  | forgetCurrent hoverlap hbase hincluded =>
      cases h' with
      | finish hafter => exact absurd (hafter _ rfl) (not_lt_of_ge hoverlap)
      | _ => simp_all
  | splitNext hoverlap hbase hincluded =>
      cases h' with
      | finish hafter => exact absurd (hafter _ rfl) (not_lt_of_ge hoverlap)
      | _ => simp_all
  | dropNext hoverlap hbase _ hincluded =>
      cases h' with
      | finish hafter => exact absurd (hafter _ rfl) (not_lt_of_ge hoverlap)
      | _ => simp_all
  | splitCurrent hoverlap hbase _ hincluded =>
      cases h' with
      | finish hafter => exact absurd (hafter _ rfl) (not_lt_of_ge hoverlap)
      | _ => simp_all

theorem IpAddress.split_release (n : IpAddress) : n.split false = .ok (n.firstHalf, n.secondHalf) := by
  rw [split, assertTrue_release]
  rfl

theorem splitNext_release (c n : IpAddress) (l : List IpAddress) : ∃ l', splitNext false c n l = .ok l' := by
  simp only [splitNext, IpAddress.split_release, assertTrue_release, bind, Except.bind]
  split
  · exact ⟨_, rfl⟩
  · exact ⟨_, rfl⟩

theorem splitCurrent_release (c n : IpAddress) (l : List IpAddress) : ∃ p, splitCurrent false c n l = .ok p := by
  simp only [splitCurrent, IpAddress.split_release, assertTrue_release, bind, Except.bind]
  split
  · exact ⟨_, rfl⟩
  · exact ⟨_, rfl⟩

/-- Nothing stops a release build. -/
theorem body_release (currentNet : IpAddress) (nextNet : Option IpAddress) (networks ipsDone : List IpAddress) :
    ∃ s, body false currentNet nextNet networks ipsDone = .ok s := by
  cases nextNet with
  | none => exact ⟨_, rfl⟩
  | some n =>
      obtain ⟨l, hnext⟩ := splitNext_release currentNet n networks
      obtain ⟨p, hcurrent⟩ := splitCurrent_release currentNet n networks
      simp only [body, assertTrue_release, hnext, hcurrent, bind, Except.bind]
      split
      · exact ⟨_, rfl⟩
      · split
        · split
          · exact ⟨_, rfl⟩
          · exact ⟨_, rfl⟩
        · split
          · exact ⟨_, rfl⟩
          · exact ⟨_, rfl⟩

/-! ## One poll -/

theorem Generation.of_step {e : Option IpAddress} (h : s.step debug e = some s') : Polls s.networks e = true ∧
    (s.phase = .start ∧ s' = { s with phase := .ofPoll e, networks := rest s.networks e } ∨
      ∃ c, s.phase = .loop c ∧ Iterates debug c (rest s.networks e) s.ipsDone e s') := by
  rw [step] at h
  split at h
  · rename_i hpolls
    refine ⟨hpolls, ?_⟩
    cases hp : s.phase with
    | start =>
        rw [hp] at h
        exact .inl ⟨rfl, (Option.some.inj h).symm⟩
    | loop c =>
        rw [hp] at h
        dsimp only at h
        cases hbody : body debug c e (rest s.networks e) s.ipsDone with
        | error => rw [hbody] at h; cases h
        | ok t =>
            rw [hbody] at h
            cases h
            exact .inr ⟨c, rfl, body_iterates hbody⟩
    | done =>
        rw [hp] at h
        cases h
  · cases h

end

end AllInSafe.Routes
