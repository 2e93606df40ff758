import AllInSafe.Library.Slots
import AllInSafe.Pool.Model

/-!
# What the operations on a pool do
-/

namespace AllInSafe.Pool
open AllInSafe.Library

/-! ## The addresses of two handles -/

theorem value_addToBytes (bs : List UInt8) (add : Nat) :
    BigEndian.value (addToBytes bs add).reverse = (BigEndian.value bs.reverse + add) % 256 ^ bs.length := by
  induction bs generalizing add with
  | nil => simp [addToBytes, BigEndian.value, Nat.mod_one]
  | cons h bs ih =>
      rw [addToBytes]
      split_ifs with hadd
      · have hlt := BigEndian.value_lt (h :: bs).reverse
        rw [List.length_reverse] at hlt
        rw [hadd, Nat.add_zero, Nat.mod_eq_of_lt hlt]
      · have hcarry : add / 256 + (h.toNat + add % 256) / 256 = (h.toNat + add) / 256 := by omega
        have hlow : (UInt8.ofNat (h.toNat + add)).toNat = (h.toNat + add) % 256 := UInt8.toNat_ofNat'
        rw [List.reverse_cons, BigEndian.value_concat, ih, List.reverse_cons, BigEndian.value_concat, hcarry, hlow,
          List.length_cons, Nat.pow_succ', Nat.mod_mul]
        have hmod : (BigEndian.value bs.reverse * 256 + h.toNat + add) % 256 = (h.toNat + add) % 256 := by omega
        have hdiv : (BigEndian.value bs.reverse * 256 + h.toNat + add) / 256
            = BigEndian.value bs.reverse + (h.toNat + add) / 256 := by omega
        rw [hmod, hdiv]
        ring

theorem add_in6_addr_inj {base : List UInt8} {i j : Nat} (hi : i < 256 ^ base.length) (hj : j < 256 ^ base.length)
    (h : add_in6_addr base i = add_in6_addr base j) : i = j := by
  have hvalue := congrArg BigEndian.value h
  rw [add_in6_addr, add_in6_addr, value_addToBytes, value_addToBytes, List.reverse_reverse,
    List.length_reverse] at hvalue
  have hmod : i % 256 ^ base.length = j % 256 ^ base.length := Nat.ModEq.add_left_cancel' _ hvalue
  rwa [Nat.mod_eq_of_lt hi, Nat.mod_eq_of_lt hj] at hmod

/-- What two clients with different handles are given has nothing in common. -/
structure Apart (pool : IfconfigPool) (a b : Addresses) : Prop where
  indiv : ∀ base, pool.ipv4 = some (.indiv, base) → a.remote ≠ b.remote
  net30 : ∀ base, pool.ipv4 = some (.net30, base) → List.Disjoint [a.vlocal, a.remote] [b.vlocal, b.remote]
  ipv6 : pool.ipv6.isSome → a.remote_ipv6 ≠ b.remote_ipv6

/-- A pool as `ifconfig_pool_init` makes it. -/
structure Sized (pool : IfconfigPool) : Prop where
  length_le : pool.list.length ≤ 2 ^ 30
  ipv6 : ∀ base ∈ pool.ipv6, base.length = 16

theorem Sized.apart {pool : IfconfigPool} {i j : Nat} (h : Sized pool) (hi : i < pool.list.length)
    (hj : j < pool.list.length) (hij : i ≠ j) : Apart pool (pool.addresses i) (pool.addresses j) := by
  have hle := h.length_le
  refine ⟨fun base hbase => ?_, fun base hbase => ?_, fun hipv6 => ?_⟩
  · simp only [IfconfigPool.addresses, hbase, ne_eq, add_right_inj, ← UInt32.toNat_inj, UInt32.toNat_ofNat']
    omega
  · have hsteps : ∀ k l : Nat, 4 * i + k < 2 ^ 32 → 4 * j + l < 2 ^ 32 → 4 * i + k ≠ 4 * j + l →
        base + UInt32.ofNat (4 * i + k) ≠ base + UInt32.ofNat (4 * j + l) := by
      intro k l hk hl hne heq
      rw [add_right_inj, ← UInt32.toNat_inj, UInt32.toNat_ofNat', UInt32.toNat_ofNat', Nat.mod_eq_of_lt hk,
        Nat.mod_eq_of_lt hl] at heq
      exact hne heq
    have hshift : ∀ n k : Nat, base + UInt32.ofNat (n <<< 2) + UInt32.ofNat k = base + UInt32.ofNat (4 * n + k) := by
      intro n k
      rw [UInt32.ofNat_add, ← add_assoc, Nat.shiftLeft_eq, Nat.mul_comm]
    simp only [IfconfigPool.addresses, hbase, List.disjoint_cons_left, List.disjoint_nil_left, List.mem_cons,
      List.not_mem_nil, or_false, not_or, and_true]
    have h1 : ∀ n, base + UInt32.ofNat (n <<< 2) + 1 = base + UInt32.ofNat (4 * n + 1) := fun n => hshift n 1
    have h2 : ∀ n, base + UInt32.ofNat (n <<< 2) + 2 = base + UInt32.ofNat (4 * n + 2) := fun n => hshift n 2
    rw [h1, h1, h2, h2]
    exact ⟨⟨hsteps 1 1 (by omega) (by omega) (by omega), hsteps 1 2 (by omega) (by omega) (by omega)⟩,
      hsteps 2 1 (by omega) (by omega) (by omega), hsteps 2 2 (by omega) (by omega) (by omega)⟩
  · obtain ⟨base, hbase⟩ := Option.isSome_iff_exists.mp hipv6
    have hbytes := h.ipv6 base hbase
    intro heq
    have hsame : add_in6_addr base i = add_in6_addr base j := by
      have hcases : ∀ k, (pool.addresses k).remote_ipv6 = add_in6_addr base k := by
        intro k
        simp only [IfconfigPool.addresses, hbase]
        split <;> rfl
      rwa [hcases, hcases] at heq
    exact hij (add_in6_addr_inj (by rw [hbytes]; omega) (by rw [hbytes]; omega) hsame)

/-! ## The operations -/

variable {pool pool' : IfconfigPool} {now : Int} {cn : Option (List Char)} {i : Nat}

def IfconfigPool.Taken (pool : IfconfigPool) (i : Nat) : Prop := ∃ e, pool.list[i]? = some e ∧ e.in_use = true

/-- Whether an entry can be given to a client when it is free. -/
def Grants (duplicate_cn : Bool) (cn : Option (List Char)) (e : PoolEntry) : Prop :=
  duplicate_cn = true ∨ e.fixed = false ∨ (cn.isSome = true ∧ e.common_name = cn)

theorem searchFrom_free {duplicate_cn : Bool} {l : List PoolEntry} {n k : Nat} {found : Search} {P : Nat → Prop}
    (hl : ∀ j e, l[j]? = some e → e.in_use = false → P (n + j))
    (hfound : ∀ k, found.previous_usage = some k ∨ found.new_usage = some k → P k)
    (hk : (searchFrom duplicate_cn cn n l found).previous_usage = some k ∨
      (searchFrom duplicate_cn cn n l found).new_usage = some k) : P k := by
  induction l generalizing n found with
  | nil => exact hfound k hk
  | cons e l ih =>
      have hrest : ∀ j e, l[j]? = some e → e.in_use = false → P (n + 1 + j) := by
        intro j b hb hfree
        rw [Nat.add_assoc, Nat.add_comm 1]
        exact hl (j + 1) b hb hfree
      rw [searchFrom] at hk
      split_ifs at hk with huse hdup
      · exact ih hrest hfound hk
      · rcases hk with hk | hk
        · exact hfound k (.inl hk)
        · cases hk
          exact hl 0 e rfl (by simpa using huse)
      · refine ih hrest (fun k hk => ?_) hk
        have hhere : P n := hl 0 e rfl (by simpa using huse)
        simp only [Search.next] at hk
        split_ifs at hk <;> grind

theorem searchFrom_none_iff {duplicate_cn : Bool} {l : List PoolEntry} {n : Nat} {found : Search} :
    ((searchFrom duplicate_cn cn n l found).previous_usage = none ∧
        (searchFrom duplicate_cn cn n l found).new_usage = none) ↔
      (found.previous_usage = none ∧ found.new_usage = none) ∧
        ∀ e ∈ l, e.in_use = false → ¬ Grants duplicate_cn cn e := by
  induction l generalizing n found with
  | nil => simp [searchFrom]
  | cons e l ih =>
      rw [searchFrom, List.forall_mem_cons]
      split_ifs with huse hdup
      · rw [ih]
        simp [huse]
      · simp [huse, hdup, Grants]
      · have hnext : ((found.next cn n e).previous_usage = none ∧ (found.next cn n e).new_usage = none) ↔
            (found.previous_usage = none ∧ found.new_usage = none) ∧ ¬ Grants duplicate_cn cn e := by
          simp only [Search.next, Grants]
          grind
        rw [ih, hnext]
        simp only [Bool.not_eq_true] at huse
        simp only [huse, forall_const, and_assoc]

theorem find_free (h : ifconfig_pool_find pool cn = some i) : ∃ e, pool.list[i]? = some e ∧ e.in_use = false := by
  have hfound := (Option.or_eq_some_iff.mp h).imp_right And.right
  refine searchFrom_free (P := fun k => ∃ e, pool.list[k]? = some e ∧ e.in_use = false) ?_ ?_ hfound
  · exact fun j e he hfree => ⟨e, by rwa [Nat.zero_add], hfree⟩
  · simp

theorem find_eq_none_iff : ifconfig_pool_find pool cn = none ↔
    ∀ e ∈ pool.list, e.in_use = false → ¬ Grants pool.duplicate_cn cn e := by
  rw [ifconfig_pool_find, Option.or_eq_none_iff, searchFrom_none_iff]
  simp

theorem taken_lt (h : pool.Taken i) : i < pool.list.length := by
  obtain ⟨e, he, -⟩ := h
  exact (List.getElem?_eq_some_iff.mp he).1

theorem find_isSome_iff : (∃ i, ifconfig_pool_find pool cn = some i) ↔
    ∃ i, ∃ e, pool.list[i]? = some e ∧ ¬ pool.Taken i ∧ Grants pool.duplicate_cn cn e := by
  rw [← Option.isSome_iff_exists, Option.isSome_iff_ne_none, Ne, find_eq_none_iff]
  simp only [not_forall, not_not]
  constructor
  · rintro ⟨e, he, hfree, hgrants⟩
    obtain ⟨i, hi⟩ := List.mem_iff_getElem?.mp he
    exact ⟨i, e, hi, by simp [IfconfigPool.Taken, hi, hfree], hgrants⟩
  · rintro ⟨i, e, hi, hfree, hgrants⟩
    exact ⟨e, List.mem_of_getElem? hi, by simpa [IfconfigPool.Taken, hi] using hfree, hgrants⟩

/-- What an operation on a pool leaves as it is. -/
structure SameRange (pool pool' : IfconfigPool) : Prop where
  duplicate_cn : pool'.duplicate_cn = pool.duplicate_cn
  ipv4 : pool'.ipv4 = pool.ipv4
  ipv6 : pool'.ipv6 = pool.ipv6
  length : pool'.list.length = pool.list.length

theorem SameRange.trans {pool'' : IfconfigPool} (h : SameRange pool pool') (h' : SameRange pool' pool'') :
    SameRange pool pool'' :=
  ⟨h'.duplicate_cn.trans h.duplicate_cn, h'.ipv4.trans h.ipv4, h'.ipv6.trans h.ipv6, h'.length.trans h.length⟩

theorem SameRange.addresses (h : SameRange pool pool') : pool'.addresses = pool.addresses := by
  funext i
  rw [IfconfigPool.addresses, IfconfigPool.addresses, h.ipv4, h.ipv6]

theorem release_sameRange (hand : Option Nat) (hard : Bool) :
    SameRange pool (ifconfig_pool_release now hand hard pool) := by
  cases hand with
  | none => exact ⟨rfl, rfl, rfl, rfl⟩
  | some i => exact ⟨rfl, rfl, rfl, List.length_modify _ _ _⟩

theorem entry_free_in_use (now : Int) (hard : Bool) (e : PoolEntry) :
    (ifconfig_pool_entry_free now hard e).in_use = false := by
  cases hard <;> rfl

theorem release_taken (hand : Option Nat) (hard : Bool) :
    (ifconfig_pool_release now hand hard pool).Taken i ↔ pool.Taken i ∧ hand ≠ some i := by
  cases hand with
  | none => simp [ifconfig_pool_release]
  | some j =>
      simp only [ifconfig_pool_release, IfconfigPool.Taken, List.getElem?_modify, ne_eq, Option.some.injEq]
      split_ifs with hij
      · simp [hij, entry_free_in_use]
      · simp [hij]

theorem acquire_cases {taken : Option (Nat × Addresses)}
    (h : ifconfig_pool_acquire now cn pool = some (taken, pool')) :
    (taken = none ∧ pool' = pool ∧ ifconfig_pool_find pool cn = none) ∨
      ∃ i, taken = some (i, pool.addresses i) ∧ ¬ pool.Taken i ∧ SameRange pool pool' ∧
        ifconfig_pool_find pool cn = some i ∧ ∀ j, pool'.Taken j ↔ pool.Taken j ∨ j = i := by
  rw [ifconfig_pool_acquire] at h
  cases hfind : ifconfig_pool_find pool cn with
  | none =>
      simp only [hfind, Option.some.injEq, Prod.mk.injEq] at h
      exact .inl ⟨h.1.symm, h.2.symm, rfl⟩
  | some i =>
      obtain ⟨e, he, hfree⟩ := find_free hfind
      have hi := (List.getElem?_eq_some_iff.mp he).1
      simp only [hfind, he, hfree, Bool.false_eq_true, if_false, Option.some.injEq, Prod.mk.injEq] at h
      obtain ⟨rfl, rfl⟩ := h
      refine .inr ⟨i, rfl, by simp [IfconfigPool.Taken, he, hfree], ⟨rfl, rfl, rfl, List.length_set⟩, rfl, fun j => ?_⟩
      simp only [IfconfigPool.Taken, List.getElem?_set]
      split_ifs with hij
      · simp [hij]
      · simp [Ne.symm hij]

theorem acquire_isSome (now : Int) (cn : Option (List Char)) (pool : IfconfigPool) :
    (ifconfig_pool_acquire now cn pool).isSome = true := by
  rw [ifconfig_pool_acquire]
  cases hfind : ifconfig_pool_find pool cn with
  | none => rfl
  | some i =>
      obtain ⟨e, he, hfree⟩ := find_free hfind
      simp [he, hfree]

theorem set_sameRange (h : Nat) (cn : List Char) (fixed : Bool) :
    SameRange pool (ifconfig_pool_set now cn h fixed pool) :=
  ⟨rfl, rfl, rfl, List.length_modify _ _ _⟩

theorem set_not_taken (hfree : ∀ i, ¬ pool.Taken i) (h : Nat) (cn : List Char) (fixed : Bool) (i : Nat) :
    ¬ (ifconfig_pool_set now cn h fixed pool).Taken i := by
  rintro ⟨e, he, huse⟩
  simp only [ifconfig_pool_set, List.getElem?_modify, Option.map_eq_map, Option.map_eq_some_iff] at he
  obtain ⟨b, hb, rfl⟩ := he
  split_ifs at huse
  · simp [entry_free_in_use] at huse
  · exact hfree i ⟨b, hb, huse⟩

theorem ipv4Range_le {start stop : UInt32} (type : PoolType) (h : (stop - start).toNat < IFCONFIG_POOL_MAX) :
    (ipv4Range type start stop).2.toNat ≤ 2 ^ 30 := by
  cases type with
  | net30 =>
      have hlt := ((stop ||| 3) + 1 - (start &&& ~~~3)).toNat_lt
      simp only [ipv4Range, UInt32.toNat_shiftRight, Nat.shiftRight_eq_div_pow]
      change _ / 2 ^ 2 ≤ _
      omega
  | indiv =>
      simp only [ipv4Range, UInt32.toNat_add]
      simp only [IFCONFIG_POOL_MAX] at h
      change (_ + 1) % _ ≤ _
      omega

theorem ipv6Range_le (ipv6_base : List UInt8) (ipv6_netbits : Nat) :
    (ipv6Range ipv6_base ipv6_netbits).2 ≤ 2 ^ 30 := by
  simp only [ipv6Range]
  split_ifs with hbits
  all_goals first
    | exact (Nat.sub_le _ _).trans (Nat.pow_le_pow_right (by decide) (by omega))
    | decide

theorem length_ipv6Range (ipv6_base : List UInt8) (ipv6_netbits : Nat) :
    (ipv6Range ipv6_base ipv6_netbits).1.length = ipv6_base.length := by
  simp only [ipv6Range]
  split_ifs <;> simp

/-- A pool as `ifconfig_pool_init` makes it. -/
structure Fresh (duplicate_cn : Bool) (pool : IfconfigPool) : Prop extends Sized pool where
  duplicate_cn_eq : pool.duplicate_cn = duplicate_cn
  entries : ∀ e ∈ pool.list, e = {}

theorem fresh_init {ipv4_pool duplicate_cn ipv6_pool : Bool} {type : PoolType} {start stop : UInt32}
    {ipv6_base : List UInt8} {ipv6_netbits : Nat} (hbase : ipv6_base.length = 16)
    (h : ifconfig_pool_init ipv4_pool type start stop duplicate_cn ipv6_pool ipv6_base ipv6_netbits = some pool) :
    Fresh duplicate_cn pool := by
  have h6 := ipv6Range_le ipv6_base ipv6_netbits
  have hlength := length_ipv6Range ipv6_base ipv6_netbits
  simp only [ifconfig_pool_init, Option.ite_none_right_eq_some, Option.ite_none_left_eq_some, Option.some.injEq] at h
  obtain ⟨⟨-, hrange⟩, -, rfl⟩ := h
  have h4 := ipv4Range_le type hrange
  refine ⟨⟨?_, fun base hb => ?_⟩, rfl, fun e he => List.eq_of_mem_replicate he⟩
  · rw [List.length_replicate, unifiedSize]
    split_ifs <;> omega
  · simp only [Option.mem_def, Option.ite_none_right_eq_some, Option.some.injEq] at hb
    rw [← hb.2, hlength, hbase]

theorem Fresh.not_taken {duplicate_cn : Bool} (h : Fresh duplicate_cn pool) (i : Nat) : ¬ pool.Taken i := by
  rintro ⟨e, he, huse⟩
  rw [h.entries e (List.mem_of_getElem? he)] at huse
  cases huse

/-! ## The selection -/

/-- What `multi_select_virtual_addr` does with a client and the pool. -/
inductive Selected (now : Int) (cn : Option (List Char)) (pool pool' : IfconfigPool) (mi ni : Client) : Bool → Prop
  | own (hhandle : ni.vaddr_handle = none) (haddr : ni.addresses = none)
      (hipv6 : ∀ x ∈ ni.push_ifconfig_ipv6_local, x ∈ mi.push_ifconfig_ipv6_local)
      (h : pool' = ifconfig_pool_release now mi.vaddr_handle true pool) : Selected now cn pool pool' mi ni true
  | asked (taken : Option (Nat × Addresses)) (hnone : mi.vaddr_handle = none)
      (h : ifconfig_pool_acquire now cn pool = some (taken, pool')) (hhandle : ni.vaddr_handle = taken.map Prod.fst)
      (haddr : ni.addresses = taken.map Prod.snd)
      (hipv6 : ∀ x ∈ ni.push_ifconfig_ipv6_local, x ∈ mi.push_ifconfig_ipv6_local ∧ (pool'.ipv6.isSome → taken = none) ∨
        pool'.ipv6.isSome ∧ ∃ i a, taken = some (i, a) ∧ a.remote_ipv6 = x) : Selected now cn pool pool' mi ni false
  | kept (hheld : mi.vaddr_handle ≠ none) (hhandle : ni.vaddr_handle = mi.vaddr_handle)
      (haddr : ni.addresses = mi.addresses)
      (hipv6 : ∀ x ∈ ni.push_ifconfig_ipv6_local, x ∈ mi.push_ifconfig_ipv6_local) (h : pool' = pool) :
      Selected now cn pool pool' mi ni false

theorem selected {push push_ipv6 : Bool} {mi ni : Client}
    (h : multi_select_virtual_addr now cn push push_ipv6 pool mi = some (ni, pool')) :
    Selected now cn pool pool' mi ni push := by
  -- without the last step, which at most takes the IPv6 address away
  obtain ⟨ni', h, hhandle, haddr, hipv6⟩ : ∃ ni',
      multi_select_virtual_addr now cn push false pool mi = some (ni', pool') ∧
      ni.vaddr_handle = ni'.vaddr_handle ∧ ni.addresses = ni'.addresses ∧
      ∀ x ∈ ni.push_ifconfig_ipv6_local, x ∈ ni'.push_ifconfig_ipv6_local := by
    cases push_ipv6 with
    | false => exact ⟨ni, h, rfl, rfl, fun x hx => hx⟩
    | true =>
        simp only [multi_select_virtual_addr, if_true, Option.map_eq_some_iff, Prod.mk.injEq] at h
        obtain ⟨⟨ni', p⟩, hselected, rfl, rfl⟩ := h
        exact ⟨ni', by simpa [multi_select_virtual_addr] using hselected, rfl, rfl, by simp⟩
  simp only [multi_select_virtual_addr, Bool.false_eq_true, if_false] at h
  split_ifs at h with hpush hnone
  · cases h
    subst hpush
    exact .own hhandle haddr hipv6 rfl
  · rw [Option.map_eq_some_iff] at h
    obtain ⟨⟨taken, p⟩, hacquire, htaken⟩ := h
    cases htaken
    rw [Bool.eq_false_iff.mpr hpush]
    refine .asked taken hnone hacquire hhandle haddr fun x hx => ?_
    have hx := hipv6 x hx
    cases htaken : taken with
    | none => exact .inl ⟨by simpa [htaken] using hx, fun _ => rfl⟩
    | some given =>
        have hgiven : p.ipv6.isSome = true ∧ given.2.remote_ipv6 = x ∨
            p.ipv6 = none ∧ mi.push_ifconfig_ipv6_local = some x := by simpa [htaken] using hx
        rcases hgiven with ⟨hpool, hx⟩ | ⟨hpool, hx⟩
        · exact .inr ⟨hpool, given.1, given.2, rfl, hx⟩
        · exact .inl ⟨hx, by simp [hpool]⟩
  · cases h
    rw [Bool.eq_false_iff.mpr hpush]
    exact .kept hnone hhandle haddr hipv6 rfl

end AllInSafe.Pool
