import AllInSafe.Routes.Lemmas.Nets

/-!
# Sets of nets as sorted lists
-/

namespace AllInSafe.Routes
open AllInSafe.Library

variable {ip m n : IpAddress} {l : List IpAddress}

namespace IpAddress

theorem compareTo_lt_iff : m.compareTo n = .lt ↔
    m.getFirstAddress < n.getFirstAddress ∨ m.getFirstAddress = n.getFirstAddress ∧ n.networkMask < m.networkMask := by
  rw [compareTo_eq_then, Ordering.then_eq_lt, Nat.compare_eq_lt, Nat.compare_eq_eq, Nat.compare_eq_lt]

theorem compareTo_eq_iff : m.compareTo n = .eq ↔ m.equals n = true := by
  refine ⟨equals_of_compareTo, fun h => ?_⟩
  obtain ⟨hmask, hfirst⟩ := equals_iff.mp h
  rw [compareTo_eq_then, Ordering.then_eq_eq, Nat.compare_eq_eq, Nat.compare_eq_eq]
  exact ⟨hfirst.symm, hmask.symm⟩

theorem compareTo_gt_iff : m.compareTo n = .gt ↔ n.compareTo m = .lt := by
  rw [compareTo_lt_iff, compareTo_eq_then, Ordering.then_eq_gt, Nat.compare_eq_gt, Nat.compare_eq_eq, Nat.compare_eq_gt,
    @eq_comm _ m.getFirstAddress]

theorem compareTo_lt_trans (h : ip.compareTo m = .lt) (h' : m.compareTo n = .lt) : ip.compareTo n = .lt := by
  rw [compareTo_lt_iff] at *
  omega

end IpAddress

/-- Strictly in the order of `compareTo`. -/
def Ascending (l : List IpAddress) : Prop := l.Pairwise fun m n => m.compareTo n = .lt

/-- `contains` of a `TreeSet`. -/
def Contains (l : List IpAddress) (ip : IpAddress) : Prop := ∃ n ∈ l, ip.equals n = true

instance : Decidable (Contains l ip) := inferInstanceAs (Decidable (∃ n ∈ l, _))

theorem mem_treeSetAdd (h : n ∈ treeSetAdd ip l) : n = ip ∨ n ∈ l := by
  induction l with
  | nil => exact .inl (List.mem_singleton.mp h)
  | cons m l ih =>
      rw [treeSetAdd] at h
      cases hc : ip.compareTo m with
      | lt => simpa [hc] using h
      | eq => simp only [hc] at h; exact .inr h
      | gt =>
          simp only [hc] at h
          rcases List.mem_cons.mp h with rfl | h
          · exact .inr List.mem_cons_self
          · exact (ih h).imp_right (List.mem_cons_of_mem m)

theorem mem_treeSetAdd_of_mem (h : n ∈ l) : n ∈ treeSetAdd ip l := by
  induction l with
  | nil => cases h
  | cons m l ih =>
      rw [treeSetAdd]
      cases hc : ip.compareTo m with
      | lt => exact List.mem_cons_of_mem ip h
      | eq => exact h
      | gt =>
          rcases List.mem_cons.mp h with rfl | h
          · exact List.mem_cons_self
          · exact List.mem_cons_of_mem m (ih h)

theorem Contains.treeSetAdd (h : Contains l n) : Contains (treeSetAdd ip l) n := by
  obtain ⟨m, hm, heq⟩ := h
  exact ⟨m, mem_treeSetAdd_of_mem hm, heq⟩

theorem contains_treeSetAdd : Contains (treeSetAdd ip l) ip := by
  induction l with
  | nil => exact ⟨ip, List.mem_singleton_self ip, by simp [IpAddress.equals_iff]⟩
  | cons m l ih =>
      rw [treeSetAdd]
      cases hc : ip.compareTo m with
      | lt => exact ⟨ip, List.mem_cons_self, by simp [IpAddress.equals_iff]⟩
      | eq => exact ⟨m, List.mem_cons_self, IpAddress.compareTo_eq_iff.mp hc⟩
      | gt =>
          obtain ⟨n, hn, heq⟩ := ih
          exact ⟨n, List.mem_cons_of_mem m hn, heq⟩

theorem Ascending.treeSetAdd (h : Ascending l) : Ascending (treeSetAdd ip l) := by
  induction l with
  | nil => exact List.pairwise_singleton _ _
  | cons m l ih =>
      obtain ⟨hm, hl⟩ := List.pairwise_cons.mp h
      rw [Routes.treeSetAdd]
      cases hc : ip.compareTo m with
      | lt =>
          refine List.pairwise_cons.mpr ⟨fun n hn => ?_, h⟩
          rcases List.mem_cons.mp hn with rfl | hn
          · exact hc
          · exact IpAddress.compareTo_lt_trans hc (hm n hn)
      | eq => exact h
      | gt =>
          refine List.pairwise_cons.mpr ⟨fun n hn => ?_, ih hl⟩
          rcases mem_treeSetAdd hn with rfl | hn
          · exact IpAddress.compareTo_gt_iff.mp hc
          · exact hm n hn

/-- A net that is there already changes nothing. -/
theorem treeSetAdd_of_contains (h : Ascending l) (hc : Contains l ip) : treeSetAdd ip l = l := by
  induction l with
  | nil => obtain ⟨n, hn, -⟩ := hc; cases hn
  | cons m l ih =>
      obtain ⟨hm, hl⟩ := List.pairwise_cons.mp h
      obtain ⟨n, hn, heq⟩ := hc
      rw [treeSetAdd]
      rcases List.mem_cons.mp hn with rfl | hn
      · rw [IpAddress.compareTo_eq_iff.mpr heq]
      · have hgt : ip.compareTo m = .gt := by
          rw [IpAddress.compareTo_gt_iff, IpAddress.compareTo_lt_iff]
          have hmn := IpAddress.compareTo_lt_iff.mp (hm n hn)
          rw [IpAddress.equals_iff] at heq
          omega
        rw [hgt]
        exact congrArg (m :: ·) (ih hl ⟨n, hn, heq⟩)

theorem treeSetAdd_perm (h : ∀ n ∈ l, ip.equals n = false) :
    (treeSetAdd ip l).Perm (ip :: l) := by
  induction l with
  | nil => exact .refl _
  | cons n l ih =>
      rw [List.forall_mem_cons] at h
      rw [treeSetAdd]
      cases hc : ip.compareTo n with
      | lt => exact .refl _
      | gt => exact ((ih h.2).cons n).trans (.swap ip n l)
      | eq => exact absurd (IpAddress.equals_of_compareTo hc) (by simp [h.1])

/-- A new net makes the set larger. -/
theorem treeSetAdd_perm_of_not_contains (hc : ¬ Contains l ip) : (treeSetAdd ip l).Perm (ip :: l) :=
  treeSetAdd_perm fun n hn => Bool.eq_false_iff.mpr fun heq => hc ⟨n, hn, heq⟩

/-! ## Adding many nets -/

def addAll (nets l : List IpAddress) : List IpAddress := nets.foldl (fun l net => treeSetAdd net l) l

theorem Ascending.addAll {nets l : List IpAddress} (h : Ascending l) : Ascending (addAll nets l) := by
  induction nets generalizing l with
  | nil => exact h
  | cons net nets ih => exact ih h.treeSetAdd

theorem addAll_append (nets nets' l : List IpAddress) : addAll (nets ++ nets') l = addAll nets' (addAll nets l) :=
  List.foldl_append

theorem addAll_of_contains {nets l : List IpAddress} (h : Ascending l) (hc : ∀ net ∈ nets, Contains l net) :
    addAll nets l = l := by
  induction nets with
  | nil => rfl
  | cons net nets ih =>
      rw [List.forall_mem_cons] at hc
      have hnet : addAll (net :: nets) l = addAll nets (treeSetAdd net l) := rfl
      rw [hnet, treeSetAdd_of_contains h hc.1, ih hc.2]

theorem Contains.addAll {nets l : List IpAddress} {net : IpAddress} (h : Contains l net) :
    Contains (addAll nets l) net := by
  induction nets generalizing l with
  | nil => exact h
  | cons n nets ih => exact ih h.treeSetAdd

theorem contains_addAll {nets l : List IpAddress} : ∀ net ∈ nets, Contains (addAll nets l) net := by
  induction nets generalizing l with
  | nil => exact fun _ h => by cases h
  | cons n nets ih =>
      rw [List.forall_mem_cons]
      exact ⟨contains_treeSetAdd.addAll, ih⟩

/-- Routes that were added once are not added again. -/
theorem addAll_addAll {nets l : List IpAddress} (h : Ascending l) : addAll nets (addAll nets l) = addAll nets l :=
  addAll_of_contains h.addAll contains_addAll

/-! ## The set that the calls build -/

theorem Call.mIpAddresses_apply (c : Call) (space : NetworkSpace) :
    (c.apply space).mIpAddresses = treeSetAdd c.net space.mIpAddresses := by
  cases c <;> rfl

theorem foldl_apply_perm {calls : List Call} {space : NetworkSpace}
    (hdistinct : calls.Pairwise fun a b => b.net.equals a.net = false)
    (hnew : ∀ c ∈ calls, ∀ n ∈ space.mIpAddresses, c.net.equals n = false) :
    (calls.foldl (fun s c => c.apply s) space).mIpAddresses.Perm (calls.map Call.net ++ space.mIpAddresses) := by
  induction calls generalizing space with
  | nil => exact .refl _
  | cons c calls ih =>
      rw [List.forall_mem_cons] at hnew
      rw [List.pairwise_cons] at hdistinct
      have hadd := treeSetAdd_perm hnew.1
      rw [← c.mIpAddresses_apply] at hadd
      refine (ih hdistinct.2 fun d hd n hn => ?_).trans ?_
      · rcases List.mem_cons.mp (hadd.mem_iff.mp hn) with rfl | hn
        · exact hdistinct.1 d hd
        · exact hnew.2 d hd n hn
      · exact (hadd.append_left _).trans List.perm_middle

section

variable {v : Bool} {calls : List Call}

theorem mIpAddresses_perm (hdistinct : calls.Pairwise fun a b => a.net.equals b.net = false) :
    (NetworkSpace.ofCalls calls).mIpAddresses.Perm (calls.map Call.net) := by
  have hperm := @foldl_apply_perm calls {}
    (hdistinct.imp fun {a b} hab => by rw [IpAddress.equals_comm]; exact hab) (by simp)
  rwa [List.append_nil] at hperm

theorem mem_foldl_apply {space : NetworkSpace} {n : IpAddress}
    (h : n ∈ (calls.foldl (fun s c => c.apply s) space).mIpAddresses) :
    (∃ c ∈ calls, n = c.net) ∨ n ∈ space.mIpAddresses := by
  induction calls generalizing space with
  | nil => exact .inr h
  | cons c calls ih =>
      rcases ih h with ⟨d, hd, heq⟩ | hmem
      · exact .inl ⟨d, List.mem_cons_of_mem c hd, heq⟩
      · rw [c.mIpAddresses_apply] at hmem
        rcases mem_treeSetAdd hmem with heq | hmem
        · exact .inl ⟨c, List.mem_cons_self, heq⟩
        · exact .inr hmem

/-- Every net of the set is the net of a call. -/
theorem mem_mIpAddresses {n : IpAddress} (h : n ∈ (NetworkSpace.ofCalls calls).mIpAddresses) :
    ∃ c ∈ calls, n = c.net :=
  (mem_foldl_apply h).resolve_right List.not_mem_nil

theorem Ascending.ofCalls : Ascending (NetworkSpace.ofCalls calls).mIpAddresses := by
  have hfold : ∀ {calls : List Call} {space : NetworkSpace}, Ascending space.mIpAddresses →
      Ascending (calls.foldl (fun s c => c.apply s) space).mIpAddresses := by
    intro calls
    induction calls with
    | nil => exact fun h => h
    | cons c calls ih =>
        refine fun h => ih ?_
        rw [c.mIpAddresses_apply]
        exact h.treeSetAdd
  exact hfold List.Pairwise.nil

/-- Equal nets of a set are one net. -/
theorem Ascending.consistent (h : Ascending l) (hvalid : ∀ n ∈ l, n.Valid v) : nets.Consistent l := by
  intro m hm n hn x hmx hnx hmask
  have hfirst := (hvalid m hm).getFirstAddress_eq_of_covers (hvalid n hn) hmx hnx hmask
  have hequal : m.compareTo n = .eq := IpAddress.compareTo_eq_iff.mpr (IpAddress.equals_iff.mpr ⟨hmask, hfirst.symm⟩)
  have hone : ∀ a ∈ l, ∀ b ∈ l, a.compareTo b = .eq → a = b := by
    refine List.Pairwise.forall_of_forall_of_flip (fun _ _ _ => rfl) (h.imp fun hlt heq => ?_)
      (h.imp fun {a b} hlt (heq : b.compareTo a = .eq) => ?_)
    · rw [hlt] at heq
      cases heq
    · rw [IpAddress.compareTo_gt_iff.mpr hlt] at heq
      cases heq
  rw [hone m hm n hn hequal]

end

end AllInSafe.Routes
