import AllInSafe.Pool.Lemmas

/-!
# Clients and their addresses

No two clients are given the same address, none is refused while there is one for it, and one that comes back finds its
own.
-/

namespace AllInSafe.Pool
open AllInSafe.Library

variable {ι : Type} {pool pool' : IfconfigPool} {now : Int} {cn : Option (List Char)} {i : Nat}

/-! ## Runs of the server -/

/-- A client has the addresses of its entry; without an entry it may still have the IPv6 address of its last one. -/
structure Holds (pool : IfconfigPool) (mi : Client) : Prop where
  addresses : mi.addresses = mi.vaddr_handle.map pool.addresses
  enabled : ∀ x ∈ mi.push_ifconfig_ipv6_local, pool.ipv6.isSome
  ipv6 : ∀ x ∈ mi.push_ifconfig_ipv6_local, ∀ i ∈ mi.vaddr_handle, x = (pool.addresses i).remote_ipv6

theorem Holds.selected {pool₀ : IfconfigPool} {push : Bool} {mi ni : Client} (h : Holds pool₀ mi)
    (hrange : SameRange pool₀ pool) (hs : Selected now cn pool pool' mi ni push) : Holds pool₀ ni := by
  cases hs with
  | own hhandle haddr hipv6 => exact ⟨by simp [hhandle, haddr], fun x hx => h.enabled x (hipv6 x hx), by simp [hhandle]⟩
  | kept hheld hhandle haddr hipv6 =>
      exact ⟨by rw [hhandle, haddr, h.addresses], fun x hx => h.enabled x (hipv6 x hx),
        fun x hx => hhandle ▸ h.ipv6 x (hipv6 x hx)⟩
  | asked taken hnone hacquire hhandle haddr hipv6 =>
      obtain ⟨hsame, htaken⟩ : SameRange pool₀ pool' ∧ ∀ given ∈ taken, given.2 = pool₀.addresses given.1 := by
        rcases acquire_cases hacquire with ⟨rfl, rfl, -⟩ | ⟨i, rfl, -, hsame, -⟩
        · exact ⟨hrange, by simp⟩
        · exact ⟨hrange.trans hsame, by simp [hrange.addresses]⟩
      refine ⟨?_, fun x hx => ?_, fun x hx i hi => ?_⟩
      · rw [hhandle, haddr]
        cases taken with
        | none => rfl
        | some given => simpa using htaken given rfl
      · rcases hipv6 x hx with ⟨hx, -⟩ | ⟨hsome, -⟩
        · exact h.enabled x hx
        · exact hsame.ipv6 ▸ hsome
      · rw [hhandle] at hi
        obtain ⟨given, rfl, rfl⟩ := Option.map_eq_some_iff.mp hi
        rcases hipv6 x hx with ⟨hx, hfails⟩ | ⟨-, j, a, heq, rfl⟩
        · cases hfails (hsame.ipv6 ▸ h.enabled x hx)
        · cases heq
          exact congrArg Addresses.remote_ipv6 (htaken (j, a) rfl)

/-- The invariant of the server on the pool `pool`. -/
structure Lends (pool : IfconfigPool) (s : Server ι) : Prop where
  range : SameRange pool s.pool
  exact : Lease.Exact s.handle s.pool.Taken
  holds : ∀ c mi, s.clients c = some mi → Holds pool mi

/-- The entry `i` is given to nobody. -/
def NotGiven (i : Nat) (s' : Server ι) : Prop := ∀ d, s'.handle d ≠ some i

theorem Lends.notGiven {s : Server ι} {b : PoolEntry} (h : Lends pool s) (hb : s.pool.list[i]? = some b)
    (hfree : b.in_use = false) : NotGiven i s := by
  intro d hd
  obtain ⟨b', hb', huse⟩ := (h.exact.taken_iff i).mpr ⟨d, hd⟩
  rw [hb] at hb'
  cases hb'
  rw [hfree] at huse
  cases huse

section
variable [DecidableEq ι] {s s' : Server ι} {c : ι} {mi : Client}

theorem lends_init (hfree : ∀ i, ¬ pool.Taken i) (lines : List (List Char × Nat × Bool)) :
    Lends pool (server (ι := ι) now pool lines).init := by
  have hlines : ∀ (lines : List (List Char × Nat × Bool)) (p : IfconfigPool), SameRange pool p →
      (∀ i, ¬ p.Taken i) →
      SameRange pool (lines.foldl (fun p line => ifconfig_pool_set now line.1 line.2.1 line.2.2 p) p) ∧
        ∀ i, ¬ (lines.foldl (fun p line => ifconfig_pool_set now line.1 line.2.1 line.2.2 p) p).Taken i := by
    intro lines
    induction lines with
    | nil => exact fun p hp hfree => ⟨hp, hfree⟩
    | cons line lines ih =>
        exact fun p hp hfree => ih _ (hp.trans (set_sameRange _ _ _)) (set_not_taken hfree _ _ _)
  obtain ⟨hrange, hnone⟩ := hlines lines pool ⟨rfl, rfl, rfl, rfl⟩ hfree
  refine ⟨hrange, ⟨fun i => ?_, fun c d i hc => ?_⟩, fun c mi hmi => ?_⟩
  · simp [server, Server.handle, hnone i]
  · simp [server, Server.handle] at hc
  · simp [server] at hmi

/-- A step changes one client, and the pool with it. -/
theorem Lends.change (h : Lends pool s) {p : IfconfigPool} {mi : Option Client} (hrange : SameRange s.pool p)
    (hexact : Lease.Exact (Function.update s.handle c (mi.bind Client.vaddr_handle)) p.Taken)
    (hholds : ∀ m, mi = some m → Holds pool m) :
    Lends pool { s with pool := p, clients := Function.update s.clients c mi } := by
  refine ⟨h.range.trans hrange, ?_, fun d m hm => ?_⟩
  · have hhandle : Server.handle { s with pool := p, clients := Function.update s.clients c mi }
        = Function.update s.handle c (mi.bind Client.vaddr_handle) := by
      funext d
      by_cases hd : d = c
      · subst hd; simp [Server.handle]
      · simp [Server.handle, hd]
    rw [hhandle]
    exact hexact
  · by_cases hd : d = c
    · subst hd
      exact hholds m (by simpa using hm)
    · exact h.holds d m (by simpa [hd] using hm)

theorem Lends.release (h : Lends pool s) {hand : Option Nat} (hhand : hand = s.handle c) (hard : Bool) :
    Lease.Exact (Function.update s.handle c none) (ifconfig_pool_release now hand hard s.pool).Taken := by
  have hdrop := h.exact.drop c
  rw [← hhand] at hdrop
  exact hdrop.congr fun i => release_taken hand hard

theorem Lends.selects {push push_ipv6 : Bool} (h : Lends pool s) (hmi : mi.vaddr_handle = s.handle c)
    (hholds : Holds pool mi) (hs : s.selects c cn push push_ipv6 mi = some s') : Lends pool s' := by
  rw [Server.selects, Option.map_eq_some_iff] at hs
  obtain ⟨⟨ni, p⟩, hselect, rfl⟩ := hs
  have hselected := selected hselect
  have hnew : ∀ m, some ni = some m → Holds pool m := by
    rintro m ⟨⟩
    exact hholds.selected h.range hselected
  cases hselected with
  | own hhandle _ _ hp =>
      subst hp
      refine h.change (release_sameRange _ _) ?_ hnew
      rw [Option.bind_some, hhandle]
      exact h.release hmi true
  | asked taken hnone hacquire hhandle =>
      rcases acquire_cases hacquire with ⟨rfl, rfl, -⟩ | ⟨i, rfl, hi, hrange, -, hq⟩
      · have hdrop := h.exact.drop c
        rw [← hmi, hnone] at hdrop
        refine h.change ⟨rfl, rfl, rfl, rfl⟩ ?_ hnew
        rw [Option.bind_some, hhandle]
        exact hdrop.congr fun i => by simp
      · refine h.change hrange ?_ hnew
        rw [Option.bind_some, hhandle]
        exact (h.exact.give (hmi ▸ hnone) hi).congr hq
  | kept _ hhandle _ _ hp =>
      subst hp
      refine h.change ⟨rfl, rfl, rfl, rfl⟩ ?_ hnew
      rw [Option.bind_some, hhandle, hmi, Function.update_eq_self]
      exact h.exact

theorem Lends.step {e : Event ι} {lines : List (List Char × Nat × Bool)} (h : Lends pool s)
    (hstep : (server now pool lines).step s e = some s') : Lends pool s' := by
  cases e with
  | time t =>
      cases hstep
      exact ⟨h.range, h.exact, h.holds⟩
  | connect c cn push push_ipv6 =>
      simp only [server] at hstep
      split_ifs at hstep with hc
      exact h.selects (by simp [Server.handle, hc]) ⟨rfl, by simp, by simp⟩ hstep
  | select c cn push push_ipv6 =>
      simp only [server, Option.bind_eq_some_iff] at hstep
      obtain ⟨mi, hmi, hs⟩ := hstep
      exact h.selects (by simp [Server.handle, hmi]) (h.holds c mi hmi) hs
  | close c =>
      simp only [server, Option.map_eq_some_iff] at hstep
      obtain ⟨mi, hmi, rfl⟩ := hstep
      exact h.change (release_sameRange _ _) (h.release (by simp [Server.handle, hmi]) false) (by simp)

theorem lends_run {lines : List (List Char × Nat × Bool)} {events : List (Event ι)} (hfree : ∀ i, ¬ pool.Taken i)
    (hrun : (server now pool lines).runFrom (server now pool lines).init events = some s) : Lends pool s :=
  Machine.invariant (M := server now pool lines) (fun _ _ _ h hstep => h.step hstep) (lends_init hfree lines) hrun

end

section
variable [DecidableEq ι] {s : Server ι} {c : ι}

/-- A client that asks for an address gets what the search finds. No assertion fails. -/
theorem request_step (now : Int) (pool : IfconfigPool) (lines : List (List Char × Nat × Bool))
    (hc : s.handle c = none) (cn : Option (List Char)) (push_ipv6 : Bool) :
    ∃ s', (server now pool lines).step s (s.request c cn push_ipv6) = some s' ∧
      s'.handle c = ifconfig_pool_find s.pool cn := by
  have hselects : ∀ mi : Client, mi.vaddr_handle = none →
      ∃ s', s.selects c cn false push_ipv6 mi = some s' ∧ s'.handle c = ifconfig_pool_find s.pool cn := by
    intro mi hmi
    obtain ⟨⟨taken, p⟩, hacquire⟩ := Option.isSome_iff_exists.mp (acquire_isSome s.now cn s.pool)
    obtain ⟨⟨ni, p'⟩, hselect⟩ : ∃ r, multi_select_virtual_addr s.now cn false push_ipv6 s.pool mi = some r := by
      cases push_ipv6 <;> simp [multi_select_virtual_addr, hmi, hacquire]
    refine ⟨_, congrArg _ hselect, ?_⟩
    have hfound : ni.vaddr_handle = ifconfig_pool_find s.pool cn := by
      cases selected hselect with
      | asked taken _ hacquire hhandle =>
          rw [hhandle]
          rcases acquire_cases hacquire with ⟨rfl, -, hfind⟩ | ⟨i, rfl, -, -, hfind, -⟩ <;> exact hfind.symm
      | kept hheld => exact absurd hmi hheld
    simpa [Server.handle] using hfound
  cases hmi : s.clients c with
  | none =>
      obtain ⟨s', hs, hhandle⟩ := hselects {} rfl
      exact ⟨s', by simpa [Server.request, server, hmi] using hs, hhandle⟩
  | some mi =>
      obtain ⟨s', hs, hhandle⟩ := hselects mi (by simpa [Server.handle, hmi] using hc)
      exact ⟨s', by simpa [Server.request, server, hmi] using hs, hhandle⟩

end

/-! ## Coming back -/

/-- No name is on two entries. -/
def NamedOnce (pool : IfconfigPool) : Prop :=
  ∀ (i j : Nat) (b d : PoolEntry) (n : List Char), pool.list[i]? = some b → pool.list[j]? = some d →
    b.common_name = some n → d.common_name = some n → i = j

/-- The free entry `i` waits for the client `n`. -/
def Awaits (pool : IfconfigPool) (i : Nat) (n : List Char) : Prop :=
  ∃ b, pool.list[i]? = some b ∧ b.in_use = false ∧ b.common_name = some n

theorem searchFrom_previous {l : List PoolEntry} {n k : Nat} {found : Search} {name : List Char}
    (hl : ∃ j b, n + j = k ∧ l[j]? = some b ∧ b.in_use = false ∧ b.common_name = some name)
    (honce : ∀ j b, l[j]? = some b → b.common_name = some name → n + j = k) (hfound : found.previous_usage = none) :
    (searchFrom false (some name) n l found).previous_usage = some k := by
  have hkept : ∀ (l : List PoolEntry) (n : Nat) (found : Search), found.previous_usage = some k →
      (searchFrom false (some name) n l found).previous_usage = some k := by
    intro l
    induction l with
    | nil => exact fun n found h => h
    | cons b l ih =>
        intro n found h
        simp only [searchFrom, Bool.false_eq_true, if_false]
        split_ifs
        · exact ih _ _ h
        · exact ih _ _ (by simp [Search.next, h])
  induction l generalizing n found with
  | nil =>
      obtain ⟨j, b, -, hb, -⟩ := hl
      simp at hb
  | cons b l ih =>
      have hrest : n ≠ k → ∃ j b, n + 1 + j = k ∧ l[j]? = some b ∧ b.in_use = false ∧ b.common_name = some name := by
        intro hne
        obtain ⟨j, d, hj, hd, hfree, hname⟩ := hl
        cases j with
        | zero => exact absurd hj hne
        | succ j => exact ⟨j, d, by omega, by simpa using hd, hfree, hname⟩
      have honce' : ∀ j d, l[j]? = some d → d.common_name = some name → n + 1 + j = k := by
        intro j d hd hname
        have hj := honce (j + 1) d (by simpa using hd) hname
        omega
      simp only [searchFrom, Bool.false_eq_true, if_false]
      by_cases hn : n = k
      · obtain ⟨j, d, hj, hd, hfree, hname⟩ := hl
        obtain rfl : j = 0 := by omega
        obtain rfl : b = d := by simpa using hd
        simp only [hfree, Bool.false_eq_true, if_false]
        exact hkept _ _ _ (by simp [Search.next, hfound, hname, hn])
      · have hother : b.common_name ≠ some name := fun hname => hn (by simpa using honce 0 b rfl hname)
        split_ifs
        · exact ih (hrest hn) honce' hfound
        · exact ih (hrest hn) honce' (by simp [Search.next, hfound, hother])

/-- Where an entry waits for a client, the client gets it. -/
theorem find_awaits {n : List Char} (hdup : pool.duplicate_cn = false) (honce : NamedOnce pool)
    (h : Awaits pool i n) : ifconfig_pool_find pool (some n) = some i := by
  obtain ⟨b, hb, hfree, hname⟩ := h
  have hprevious : (searchFrom false (some n) 0 pool.list {}).previous_usage = some i :=
    searchFrom_previous ⟨i, b, Nat.zero_add i, hb, hfree, hname⟩
      (fun j d hd hn => (Nat.zero_add j).trans (honce j i d b n hd hb hn hname)) rfl
  simp [ifconfig_pool_find, hdup, hprevious]

theorem acquire_list {a : Addresses} (h : ifconfig_pool_acquire now cn pool = some (some (i, a), pool')) :
    ∃ b, pool'.list = pool.list.set i b ∧ b.common_name = cn := by
  rw [ifconfig_pool_acquire] at h
  cases hfind : ifconfig_pool_find pool cn with
  | none => simp [hfind] at h
  | some j =>
      obtain ⟨b, hb, hfree⟩ := find_free hfind
      simp only [hfind, hb, hfree, Bool.false_eq_true, if_false, Option.some.injEq, Prod.mk.injEq] at h
      obtain ⟨⟨rfl, -⟩, rfl⟩ := h
      exact ⟨_, rfl, rfl⟩

theorem release_list {hand : Option Nat} {hard : Bool} {d : PoolEntry} {j : Nat}
    (h : (ifconfig_pool_release now hand hard pool).list[j]? = some d) :
    ∃ b, pool.list[j]? = some b ∧ ∀ n, d.common_name = some n → b.common_name = some n := by
  cases hand with
  | none => exact ⟨d, h, fun n hn => hn⟩
  | some k =>
      simp only [ifconfig_pool_release, List.getElem?_modify, Option.map_eq_map, Option.map_eq_some_iff] at h
      obtain ⟨b, hb, rfl⟩ := h
      refine ⟨b, hb, fun n hn => ?_⟩
      split_ifs at hn
      · cases hard
        · exact hn
        · cases hn
      · exact hn

theorem release_of_ne {hand : Option Nat} (hard : Bool) (h : hand ≠ some i) :
    (ifconfig_pool_release now hand hard pool).list[i]? = pool.list[i]? := by
  cases hand with
  | none => rfl
  | some k =>
      rw [ifconfig_pool_release, List.getElem?_modify]
      have hki : k ≠ i := fun hki => h (congrArg some hki)
      simp [hki]

/-- Who asks for an address of the pool, and under what name. -/
def Event.asks : Event ι → Option (ι × Option (List Char))
  | .connect c cn false _ => some (c, cn)
  | .select c cn false _ => some (c, cn)
  | _ => none

/-- No other client of the same name has an address: `multi_delete_dup` has closed them. -/
def AsksAlone (s : Server ι) (e : Event ι) : Prop :=
  ∀ asked ∈ e.asks, s.handle asked.1 = none → asked.2.isSome →
    ∀ b ∈ s.pool.list, b.in_use = true → b.common_name ≠ asked.2

instance (s : Server ι) (e : Event ι) : Decidable (AsksAlone s e) :=
  inferInstanceAs (Decidable (∀ asked ∈ e.asks, s.handle asked.1 = none → asked.2.isSome →
    ∀ b ∈ s.pool.list, b.in_use = true → b.common_name ≠ asked.2))

section
variable [DecidableEq ι] {s s' : Server ι} {c : ι} {mi : Client} {lines : List (List Char × Nat × Bool)}

/-- What a step does to the pool when `asked` asks for an address in it. -/
inductive PoolStep (s s' : Server ι) (asked : Option (ι × Option (List Char))) : Prop
  | same (h : s'.pool = s.pool)
  | release (c : ι) (hard : Bool) (h : s'.pool = ifconfig_pool_release s.now (s.handle c) hard s.pool)
  | acquire (c : ι) (cn : Option (List Char)) (i : Nat) (a : Addresses) (hasked : asked = some (c, cn))
      (hc : s.handle c = none) (h : ifconfig_pool_acquire s.now cn s.pool = some (some (i, a), s'.pool))
      (hgiven : s'.handle c = some i)

theorem poolStep_selects {push push_ipv6 : Bool} (hmi : mi.vaddr_handle = s.handle c)
    (hs : s.selects c cn push push_ipv6 mi = some s') : PoolStep s s' (if push then none else some (c, cn)) := by
  rw [Server.selects, Option.map_eq_some_iff] at hs
  obtain ⟨⟨ni, p⟩, hselect, rfl⟩ := hs
  cases selected hselect with
  | own _ _ _ hp => exact .release c true (by rw [← hmi]; exact hp)
  | asked taken hnone hacquire hhandle =>
      cases taken with
      | none =>
          rcases acquire_cases hacquire with ⟨-, rfl, -⟩ | ⟨i, hi, -⟩
          · exact .same rfl
          · cases hi
      | some taken =>
          exact .acquire c cn taken.1 taken.2 rfl (hmi ▸ hnone) hacquire (by simp [Server.handle, hhandle])
  | kept _ _ _ _ hp => exact .same hp

theorem poolStep {e : Event ι} (hstep : (server now pool lines).step s e = some s') : PoolStep s s' e.asks := by
  have hasks : ∀ (c : ι) (cn : Option (List Char)) (push push_ipv6 : Bool),
      (Event.connect c cn push push_ipv6).asks = (if push then none else some (c, cn)) ∧
        (Event.select c cn push push_ipv6).asks = (if push then none else some (c, cn)) := by
    intro c cn push push_ipv6
    cases push <;> exact ⟨rfl, rfl⟩
  cases e with
  | time t =>
      cases hstep
      exact .same rfl
  | connect c cn push push_ipv6 =>
      simp only [server] at hstep
      split_ifs at hstep with hc
      rw [(hasks c cn push push_ipv6).1]
      exact poolStep_selects (by simp [Server.handle, hc]) hstep
  | select c cn push push_ipv6 =>
      simp only [server, Option.bind_eq_some_iff] at hstep
      obtain ⟨mi, hmi, hs⟩ := hstep
      rw [(hasks c cn push push_ipv6).2]
      exact poolStep_selects (by simp [Server.handle, hmi]) hs
  | close c =>
      simp only [server, Option.map_eq_some_iff] at hstep
      obtain ⟨mi, hmi, rfl⟩ := hstep
      exact .release c false (by simp [Server.handle, hmi])

theorem namedOnce_step {e : Event ι} (hdup : s.pool.duplicate_cn = false) (h : NamedOnce s.pool)
    (halone : AsksAlone s e) (hstep : (server now pool lines).step s e = some s') : NamedOnce s'.pool := by
  cases poolStep hstep with
  | same hp => exact hp ▸ h
  | release c hard hp =>
      intro i j b d n hb hd hbn hdn
      rw [hp] at hb hd
      obtain ⟨b', hb', hbname⟩ := release_list hb
      obtain ⟨d', hd', hdname⟩ := release_list hd
      exact h i j b' d' n hb' hd' (hbname n hbn) (hdname n hdn)
  | acquire c cn k a hasked hc hacquire =>
      obtain ⟨given, hlist, hgiven⟩ := acquire_list hacquire
      have hfind : ifconfig_pool_find s.pool cn = some k := by
        rcases acquire_cases hacquire with ⟨hnone, -⟩ | ⟨i, hi, -, -, hfind, -⟩
        · cases hnone
        · cases hi
          exact hfind
      -- An entry with the new name that is not the one given would have been found first.
      have hother : ∀ j d n, j ≠ k → s.pool.list[j]? = some d → d.common_name = some n → cn ≠ some n := by
        rintro j d n hjk hd hdn rfl
        have hfree : d.in_use = false := by
          by_contra huse
          exact halone _ hasked hc rfl d (List.mem_of_getElem? hd) (by simpa using huse) hdn
        rw [find_awaits hdup h ⟨d, hd, hfree, hdn⟩] at hfind
        exact hjk (Option.some.inj hfind)
      intro i j b d n hb hd hbn hdn
      rw [hlist, List.getElem?_set] at hb hd
      split_ifs at hb hd with hki hlt hkj hlt' hkj
      · exact hki.symm.trans hkj
      · cases hb
        exact absurd (hgiven ▸ hbn) (hother j d n (Ne.symm hkj) hd hdn)
      · cases hd
        exact absurd (hgiven ▸ hdn) (hother i b n (Ne.symm hki) hb hbn)
      · exact h i j b d n hb hd hbn hdn

theorem awaits_step {e : Event ι} {n : List Char} (h : Awaits s.pool i n) (hlends : Lends pool s)
    (hnot : NotGiven i s') (hstep : (server now pool lines).step s e = some s') : Awaits s'.pool i n := by
  obtain ⟨b, hb, hfree, hname⟩ := h
  cases poolStep hstep with
  | same hp => exact ⟨b, hp ▸ hb, hfree, hname⟩
  | release c hard hp =>
      refine ⟨b, ?_, hfree, hname⟩
      rw [hp, release_of_ne hard (hlends.notGiven hb hfree c), hb]
  | acquire c cn k a hasked hc hacquire hgiven =>
      have hki : k ≠ i := fun hki => hnot c (hki ▸ hgiven)
      obtain ⟨given, hlist, -⟩ := acquire_list hacquire
      refine ⟨b, ?_, hfree, hname⟩
      rw [hlist, List.getElem?_set, if_neg hki, hb]

end

/-! ## The main results -/

section
variable [DecidableEq ι] {ipv4_pool duplicate_cn ipv6_pool : Bool} {type : PoolType} {start stop : UInt32}
  {ipv6_base : List UInt8} {ipv6_netbits : Nat} {lines : List (List Char × Nat × Bool)} {events : List (Event ι)}
  {s : Server ι}

/-- A pool of three nets of four addresses, with as many IPv6 addresses. -/
def netPool : IfconfigPool where
  duplicate_cn := false
  ipv4 := some (.net30, 0x0A080004)
  ipv6 := some (0xFD :: List.replicate 13 0 ++ [0x10, 0])
  list := List.replicate 3 {}

theorem netPool_init : ifconfig_pool_init true .net30 0x0A080004 0x0A08000F false true
    (0xFD :: List.replicate 13 0 ++ [0x10, 0]) 112 = some netPool := by
  decide +kernel

def client (i : Nat) : Client where
  vaddr_handle := some i
  addresses := some (netPool.addresses i)
  push_ifconfig_ipv6_local := some (netPool.addresses i).remote_ipv6

/-- The clients of the pool after Alice and Bob have connected. -/
def aliceAndBob : Server Nat where
  now := 5
  pool :=
    { netPool with
      list := [{ in_use := true, common_name := some ['a'] }, { in_use := true, common_name := some ['b'] }, {}] }
  clients := Function.update (Function.update (fun _ => none) 0 (some (client 0))) 1 (some (client 1))

def aliceLeft : Server Nat where
  now := 5
  pool :=
    { netPool with
      list := [{ common_name := some ['a'], last_release := 5 }, { in_use := true, common_name := some ['b'] }, {}] }
  clients := Function.update aliceAndBob.clients 0 none

/-- Carol is given the third address, while the first one waits for Alice. -/
def carolAndBob : Server Nat where
  now := 5
  pool :=
    { netPool with
      list :=
        [{ common_name := some ['a'], last_release := 5 }, { in_use := true, common_name := some ['b'] },
          { in_use := true, common_name := some ['c'] }] }
  clients := Function.update aliceLeft.clients 2 (some (client 2))

def visits : List (Event Nat) :=
  [.connect 0 (some ['a']) false false, .connect 1 (some ['b']) false false, .time 5]

theorem visits_run : (server 0 netPool []).runFrom (server 0 netPool []).init visits = some aliceAndBob := by
  rfl

theorem visits_on : (server 0 netPool []).runFrom aliceAndBob [.close 0, .connect 2 (some ['c']) false false]
    = some carolAndBob := by
  rfl

/-- Whatever clients come and go, two that are connected at the same time are never given the same IPv4 address, and of
a net of four addresses neither the one nor the other end. While both hold their entries, their IPv6 addresses are not
the same either. -/
theorem no_address_shared {c d : ι} {mi ni : Client} (hbase : ipv6_base.length = 16)
    (hpool : ifconfig_pool_init ipv4_pool type start stop duplicate_cn ipv6_pool ipv6_base ipv6_netbits = some pool)
    (hrun : (server now pool lines).runFrom (server now pool lines).init events = some s) (hcd : c ≠ d)
    (hc : s.clients c = some mi) (hd : s.clients d = some ni) :
    (∀ a ∈ mi.addresses, ∀ b ∈ ni.addresses, Apart pool a b) ∧
      (mi.vaddr_handle.isSome → ni.vaddr_handle.isSome →
        ∀ x ∈ mi.push_ifconfig_ipv6_local, x ∉ ni.push_ifconfig_ipv6_local) := by
  have hfresh := fresh_init hbase hpool
  have hlends := lends_run hfresh.not_taken hrun
  have hlt : ∀ {c : ι} {mi : Client} {i : Nat}, s.clients c = some mi → mi.vaddr_handle = some i →
      s.handle c = some i ∧ i < pool.list.length := by
    intro c mi i hmi hi
    have hhandle : s.handle c = some i := by simp [Server.handle, hmi, hi]
    have htaken := (hlends.exact.taken_iff i).mpr ⟨c, hhandle⟩
    exact ⟨hhandle, hlends.range.length ▸ taken_lt htaken⟩
  have hapart : ∀ {i j : Nat}, mi.vaddr_handle = some i → ni.vaddr_handle = some j →
      Apart pool (pool.addresses i) (pool.addresses j) := by
    intro i j hi hj
    obtain ⟨hci, hi⟩ := hlt hc hi
    obtain ⟨hdj, hj⟩ := hlt hd hj
    exact hfresh.apart hi hj fun hij => hcd (hlends.exact.once c d i hci (hij ▸ hdj))
  have hmi := hlends.holds c mi hc
  have hni := hlends.holds d ni hd
  constructor
  · intro a ha b hb
    rw [hmi.addresses, Option.mem_def, Option.map_eq_some_iff] at ha
    rw [hni.addresses, Option.mem_def, Option.map_eq_some_iff] at hb
    obtain ⟨i, hi, rfl⟩ := ha
    obtain ⟨j, hj, rfl⟩ := hb
    exact hapart hi hj
  · intro hi hj x hx hx'
    obtain ⟨i, hi⟩ := Option.isSome_iff_exists.mp hi
    obtain ⟨j, hj⟩ := Option.isSome_iff_exists.mp hj
    exact (hapart hi hj).ipv6 (hmi.enabled x hx) ((hmi.ipv6 x hx i hi).symm.trans (hni.ipv6 x hx' j hj))

theorem no_address_shared_carol :
    (∀ a ∈ (client 2).addresses, ∀ b ∈ (client 1).addresses, Apart netPool a b) ∧
      ∀ x ∈ (client 2).push_ifconfig_ipv6_local, x ∉ (client 1).push_ifconfig_ipv6_local := by
  have hshared := no_address_shared (by decide) netPool_init (Machine.runFrom_append.mpr ⟨_, visits_run, visits_on⟩)
    (by decide : (2 : Nat) ≠ 1) rfl rfl
  exact ⟨hshared.1, hshared.2 rfl rfl⟩

/-- Alice has an IPv4 address of her own from her second selection on, and keeps the IPv6 address that Bob is given. -/
example : ∃ s a, (server 0 netPool []).runFrom (server 0 netPool []).init [.connect 0 (some ['a']) false false,
    .select 0 (some ['a']) true false, .connect 1 (some ['b']) false false] = some s ∧
      (s.clients 0).bind Client.push_ifconfig_ipv6_local = some a ∧
      (s.clients 1).bind Client.push_ifconfig_ipv6_local = some a :=
  ⟨_, _, rfl, rfl, rfl⟩

/-- A client that asks for an address is refused only where there is none for it: each entry is held by a connected
client, or is fixed for another name. No assertion fails. -/
theorem address_given_iff (hbase : ipv6_base.length = 16)
    (hpool : ifconfig_pool_init ipv4_pool type start stop duplicate_cn ipv6_pool ipv6_base ipv6_netbits = some pool)
    (hrun : (server now pool lines).runFrom (server now pool lines).init events = some s) {c : ι}
    (hc : s.handle c = none) (cn : Option (List Char)) (push_ipv6 : Bool) :
    ∃ s', (server now pool lines).step s (s.request c cn push_ipv6) = some s' ∧
      ((∃ i, s'.handle c = some i) ↔
        ∃ i e, s.pool.list[i]? = some e ∧ (∀ d, s.handle d ≠ some i) ∧ Grants duplicate_cn cn e) := by
  have hfresh := fresh_init hbase hpool
  have hlends := lends_run hfresh.not_taken hrun
  have hdup : s.pool.duplicate_cn = duplicate_cn := hlends.range.duplicate_cn.trans hfresh.duplicate_cn_eq
  obtain ⟨s', hs', hhandle⟩ := request_step now pool lines hc cn push_ipv6
  refine ⟨s', hs', ?_⟩
  rw [hhandle]
  simp only [find_isSome_iff, hlends.exact.taken_iff, not_exists, hdup, ne_eq]

theorem address_given_iff_dave :
    ∃ s', (server 0 netPool []).step carolAndBob (carolAndBob.request 3 none true) = some s' ∧
      ((∃ i, s'.handle 3 = some i) ↔
      ∃ i e, carolAndBob.pool.list[i]? = some e ∧ (∀ d, carolAndBob.handle d ≠ some i) ∧ Grants false none e) :=
  address_given_iff (by decide) netPool_init (Machine.runFrom_append.mpr ⟨_, visits_run, visits_on⟩) rfl none true

/-- A client that has left and comes back is given the address that it had, unless that has been given to another client
in the meantime. This is for clients of distinct names, and a pool that is not read from a file. -/
theorem address_kept {before away : List (Event ι)} {left back : Server ι} {c d : ι} {i : Nat} {b : PoolEntry}
    {n : List Char} (hbase : ipv6_base.length = 16)
    (hpool : ifconfig_pool_init ipv4_pool type start stop false ipv6_pool ipv6_base ipv6_netbits = some pool)
    (hbefore : (server now pool []).runFrom (server now pool []).init before = some left)
    (haway : (server now pool []).runFrom left (.close c :: away) = some back)
    (halone : (server now pool []).StepsMeet AsksAlone (server now pool []).init (before ++ .close c :: away))
    (hnot : (server now pool []).StepsMeet
      (fun s e => ∀ s', (server now pool []).step s e = some s' → NotGiven i s') left (.close c :: away))
    (hc : left.handle c = some i) (hb : left.pool.list[i]? = some b) (hname : b.common_name = some n)
    (hd : back.handle d = none) (push_ipv6 : Bool) :
    ∃ s', (server now pool []).step back (back.request d (some n) push_ipv6) = some s' ∧ s'.handle d = some i := by
  have hfresh := fresh_init hbase hpool
  have hleft := lends_run hfresh.not_taken hbefore
  have hrun := Machine.runFrom_append.mpr ⟨left, hbefore, haway⟩
  have hback := lends_run hfresh.not_taken hrun
  have hdup : ∀ {s : Server ι}, Lends pool s → s.pool.duplicate_cn = false := fun h =>
    h.range.duplicate_cn.trans hfresh.duplicate_cn_eq
  have honce : Lends pool back ∧ NamedOnce back.pool := by
    refine halone.invariant (I := fun s => Lends pool s ∧ NamedOnce s.pool) ?_ ⟨lends_init hfresh.not_taken [], ?_⟩ hrun
    · exact fun s e s' h hgood hstep => ⟨h.1.step hstep, namedOnce_step (hdup h.1) h.2 hgood hstep⟩
    · intro i j b d n hb _ hbn
      rw [hfresh.entries b (List.mem_of_getElem? hb)] at hbn
      cases hbn
  obtain ⟨gone, hclose, hrest⟩ := Machine.runFrom_cons.mp haway
  have hawaits : Awaits gone.pool i n := by
    simp only [server, Option.map_eq_some_iff] at hclose
    obtain ⟨mi, hmi, rfl⟩ := hclose
    have hhand : mi.vaddr_handle = some i := by simpa [Server.handle, hmi] using hc
    refine ⟨ifconfig_pool_entry_free left.now false b, ?_, rfl, hname⟩
    simp [hhand, ifconfig_pool_release, hb]
  have hkept : Lends pool back ∧ Awaits back.pool i n := by
    refine (hnot.2 gone hclose).invariant (I := fun s => Lends pool s ∧ Awaits s.pool i n) ?_
      ⟨hleft.step hclose, hawaits⟩ hrest
    exact fun s e s' h hgood hstep => ⟨h.1.step hstep, awaits_step h.2 h.1 (hgood s' hstep) hstep⟩
  obtain ⟨s', hs', hhandle⟩ := request_step now pool [] hd (some n) push_ipv6
  exact ⟨s', hs', hhandle.trans (find_awaits (hdup hback) honce.2 hkept.2)⟩

theorem address_kept_alice :
    ∃ s', (server 0 netPool []).step carolAndBob (carolAndBob.request 7 (some ['a']) false) = some s' ∧
      s'.handle 7 = some 0 := by
  have hfresh := fresh_init (by decide) netPool_init
  have hleft : Lends netPool aliceLeft :=
    lends_run hfresh.not_taken (rfl : (server 0 netPool []).runFrom _ (visits ++ [.close 0]) = some aliceLeft)
  have hback : Lends netPool carolAndBob :=
    lends_run hfresh.not_taken (Machine.runFrom_append.mpr ⟨_, visits_run, visits_on⟩)
  refine address_kept (by decide) netPool_init visits_run visits_on (by decide) ⟨?_, ?_⟩ rfl rfl rfl rfl false
  · intro t ht
    obtain rfl : aliceLeft = t := Option.some.inj ht
    exact hleft.notGiven rfl rfl
  · intro t ht
    obtain rfl : aliceLeft = t := Option.some.inj ht
    refine ⟨fun u hu => ?_, fun _ _ => trivial⟩
    obtain rfl : carolAndBob = u := Option.some.inj hu
    exact hback.notGiven rfl rfl

end

end AllInSafe.Pool
