import AllInSafe.Epoch.Packets

/-!
# The keys of the epochs
-/

namespace AllInSafe.Epoch
open AllInSafe.Library AllInSafe.Replay

section Chain

variable {C : Crypto} {kt : KeyType} {first : EpochKey} {ctx : KeyCtx} {keys before after : List KeyCtx}
  {co : CryptoOptions} {e h n : Nat}

/-- The key of an epoch, which follows from that of the first one. -/
def epochKey (C : Crypto) (first : EpochKey) (e : Nat) : EpochKey := (epoch_key_iterate C)^[e - 1] first

theorem epochKey_one : epochKey C first 1 = first := rfl

theorem iterate_epochKey (he : 0 < e) : (epoch_key_iterate C)^[n] (epochKey C first e) = epochKey C first (e + n) := by
  rw [epochKey, epochKey, ← Function.iterate_add_apply]
  congr 2
  omega

theorem epochKey_succ (he : 0 < e) : epoch_key_iterate C (epochKey C first e) = epochKey C first (e + 1) :=
  iterate_epochKey (n := 1) he

theorem epoch_epochKey (hfirst : first.epoch = 1) (he : 0 < e) (hle : e ≤ UINT16_MAX) :
    (epochKey C first e).epoch = e := by
  induction e, he using Nat.le_induction with
  | base => exact hfirst
  | succ e he ih =>
      have hbefore := ih (by omega)
      rw [← epochKey_succ he, epoch_key_iterate, hbefore]
      exact Nat.mod_eq_of_lt (by rw [UINT16_MAX] at hle; omega)

theorem length_hkdfBlocks {secret info t : List UInt8} {block : Nat} :
    (hkdfBlocks C.hmac secret info n block t).length = 32 * n := by
  induction n generalizing block t with
  | zero => rfl
  | succ n ih =>
      rw [hkdfBlocks, List.length_append, ih, C.length_hmac, SHA256_DIGEST_LENGTH, Nat.mul_succ, Nat.add_comm]

theorem length_expand {k : EpochKey} {label : String} {out_len : Nat} :
    (expand C k label out_len).length = out_len := by
  rw [expand, ovpn_expand_label]
  split_ifs
  · simp
  · rw [Option.getD_some, ovpn_hkdf_expand, List.length_take, length_hkdfBlocks]
    omega

/-! ## Contexts of an epoch -/

/-- A context that has been set up for an epoch. -/
structure Holds (C : Crypto) (kt : KeyType) (first : EpochKey) (ctx : KeyCtx) (e : Nat) : Prop where
  cipher : ctx.cipher = some (epoch_data_key_derive C (epochKey C first e) kt).cipher
  implicit_iv : ctx.implicit_iv = (epoch_data_key_derive C (epochKey C first e) kt).hmac
  epoch : ctx.epoch = e

theorem holds_init (C : Crypto) (kt : KeyType) (hfirst : first.epoch = 1) (he : 0 < e) (hle : e ≤ UINT16_MAX) :
    Holds C kt first (init_key_ctx (epoch_data_key_derive C (epochKey C first e) kt)) e :=
  ⟨rfl, rfl, epoch_epochKey hfirst he hle⟩

/-- The contexts of the epochs from some epoch on. -/
def Consecutive (C : Crypto) (kt : KeyType) (first : EpochKey) : Nat → List KeyCtx → Prop
  | _, [] => True
  | e, ctx :: keys => Holds C kt first ctx e ∧ Consecutive C kt first (e + 1) keys

theorem consecutive_append : Consecutive C kt first e (before ++ after) ↔
    Consecutive C kt first e before ∧ Consecutive C kt first (e + before.length) after := by
  induction before generalizing e with
  | nil => simp [Consecutive]
  | cons ctx before ih =>
      rw [List.cons_append, Consecutive, ih, Consecutive, and_assoc, List.length_cons, Nat.add_assoc, Nat.add_comm 1]

theorem Consecutive.epochs (hkeys : Consecutive C kt first e keys) (hmem : ctx ∈ keys) :
    e ≤ ctx.epoch ∧ ctx.epoch < e + keys.length := by
  obtain ⟨before, after, rfl⟩ := List.append_of_mem hmem
  obtain ⟨-, hctx, -⟩ := consecutive_append.mp hkeys
  rw [hctx.epoch, List.length_append, List.length_cons]
  omega

/-- The place of an epoch among the keys. -/
theorem Consecutive.split (hkeys : Consecutive C kt first e keys) (hle : e ≤ n) (hlt : n < e + keys.length) :
    ∃ before ctx after, keys = before ++ ctx :: after ∧ before.length = n - e ∧
      Consecutive C kt first e before ∧ Holds C kt first ctx n ∧ Consecutive C kt first (n + 1) after := by
  have hi : n - e < keys.length := by omega
  have hsplit : keys = keys.take (n - e) ++ keys[n - e] :: keys.drop (n - e + 1) := by
    rw [List.getElem_cons_drop, List.take_append_drop]
  have hlength : (keys.take (n - e)).length = n - e := List.length_take_of_le hi.le
  rw [hsplit] at hkeys
  obtain ⟨hbefore, hctx, hafter⟩ := consecutive_append.mp hkeys
  rw [hlength, Nat.add_sub_cancel' hle] at hctx hafter
  exact ⟨_, _, _, hsplit, hlength, hbefore, hctx, hafter⟩

theorem Consecutive.find (hbefore : Consecutive C kt first e before) (hn : n = e + before.length)
    (hctx : ctx.epoch = n) :
    (before ++ ctx :: after).findIdx? (·.epoch = n) = some before.length := by
  have hother : before.findIdx? (·.epoch = n) = none := by
    rw [List.findIdx?_eq_none_iff]
    intro k hk
    have hepochs := hbefore.epochs hk
    exact decide_eq_false (by omega)
  rw [List.findIdx?_append, hother, List.findIdx?_cons, decide_eq_true hctx]
  simp

theorem Consecutive.getLast? (hkeys : Consecutive C kt first e keys) (hne : keys ≠ []) :
    ∃ ctx, keys.getLast? = some ctx ∧ ctx.epoch = e + keys.length - 1 := by
  obtain ⟨before, ctx, rfl⟩ := (List.eq_nil_or_concat keys).resolve_left hne
  rw [List.concat_eq_append] at hkeys ⊢
  obtain ⟨-, hctx, -⟩ := consecutive_append.mp hkeys
  exact ⟨ctx, List.getLast?_concat, by rw [hctx.epoch]; simp⟩

/-! ## New keys -/

theorem generateKeys_eq (n : Nat) (co : CryptoOptions) (hfirst : first.epoch = 1)
    (hkey : co.epoch_key_recv = epochKey C first h) (hh : 0 < h)
    (hle : h + n ≤ UINT16_MAX) : ∃ keys, keys.length = n ∧ Consecutive C co.epoch_key_type first (h + 1) keys ∧
      generateKeys C n co = { co with
        epoch_key_recv := epochKey C first (h + n)
        epoch_data_keys_future := co.epoch_data_keys_future ++ keys } := by
  induction n generalizing co h with
  | zero => exact ⟨[], rfl, trivial, by rw [List.append_nil, Nat.add_zero, ← hkey]; rfl⟩
  | succ n ih =>
      obtain ⟨keys, hlength, hkeys, heq⟩ := @ih (h + 1)
        { co with
          epoch_key_recv := epochKey C first (h + 1)
          epoch_data_keys_future := co.epoch_data_keys_future ++
            [init_key_ctx (epoch_data_key_derive C (epochKey C first (h + 1)) co.epoch_key_type)] }
        rfl (Nat.succ_pos h) (by omega)
      refine ⟨init_key_ctx (epoch_data_key_derive C (epochKey C first (h + 1)) co.epoch_key_type) :: keys,
        congrArg (· + 1) hlength, ⟨holds_init C co.epoch_key_type hfirst (Nat.succ_pos h) (by omega), hkeys⟩, ?_⟩
      rw [generateKeys, hkey, epochKey_succ hh]
      refine heq.trans ?_
      rw [List.append_assoc, Nat.add_assoc, Nat.add_comm 1]
      rfl

theorem freeOld_of_lt (hlt : ctx.epoch < e) : (freeOld e ctx).epoch = 0 := by
  unfold freeOld
  split_ifs with hold
  · rfl
  · omega

theorem freeOld_of_le (hle : e ≤ ctx.epoch) : freeOld e ctx = ctx := if_neg (by omega)

theorem freeOld_of_zero (hzero : ctx.epoch = 0) : freeOld e ctx = ctx := if_neg (by omega)

/-- The keys in front of those that stay are used no more, and as many new ones are put behind them. -/
theorem generate_spec {zeros : List KeyCtx} {highest : KeyCtx} (hfirst : first.epoch = 1)
    (hfuture : co.epoch_data_keys_future = zeros ++ after) (hlast : co.epoch_data_keys_future.getLast? = some highest)
    (hhighest : co.epoch_key_recv.epoch = 1 ∧ highest.epoch = 0 ∧ h = 1 ∨ highest.epoch = h)
    (hzeros : ∀ k ∈ zeros, k.epoch < co.decrypt.epoch)
    (hafter : Consecutive C co.epoch_key_type first (co.decrypt.epoch + 1) after) (hh : 0 < h)
    (hsum : h = co.decrypt.epoch + after.length) (hkey : co.epoch_key_recv = epochKey C first h)
    (hle : h + zeros.length ≤ UINT16_MAX) : ∃ keys, keys.length = zeros.length ∧
      Consecutive C co.epoch_key_type first (h + 1) keys ∧
      epoch_generate_future_receive_keys C co = some { co with
        epoch_key_recv := epochKey C first (h + zeros.length)
        epoch_data_keys_future := after ++ keys } := by
  have hepoch : co.epoch_key_recv.epoch = h := by rw [hkey, epoch_epochKey hfirst hh (by omega)]
  obtain ⟨keys, hlength, hkeys, heq⟩ := generateKeys_eq zeros.length { co with epoch_data_keys_future := after }
    hfirst hkey hh hle
  refine ⟨keys, hlength, hkeys, ?_⟩
  have hkept : freeOld co.decrypt.epoch highest = highest := by
    rcases hhighest with ⟨-, hzero, -⟩ | hh'
    · exact freeOld_of_zero hzero
    · exact freeOld_of_le (by omega)
  have hcurrent : (if highest.epoch ≠ 0 then highest.epoch else 1) = h := by
    rcases hhighest with ⟨-, hzero, rfl⟩ | rfl
    · rw [if_neg (not_not.mpr hzero)]
    · rw [if_pos hh.ne']
  have hcount : co.epoch_data_keys_future.length = zeros.length + after.length := by rw [hfuture, List.length_append]
  have hnum : ((co.decrypt.epoch + co.epoch_data_keys_future.length) % 2 ^ 16 + 2 ^ 16 - h) % 2 ^ 16 = zeros.length := by
    rw [UINT16_MAX] at hle
    rw [hcount]
    omega
  have hmapped : co.epoch_data_keys_future.map (freeOld co.decrypt.epoch) = zeros.map (freeOld co.decrypt.epoch) ++ after := by
    rw [hfuture, List.map_append]
    congr 1
    exact (List.map_congr_left fun k hk => freeOld_of_le ((Nat.le_succ _).trans (hafter.epochs hk).1)).trans (List.map_id _)
  unfold epoch_generate_future_receive_keys
  simp only [hlast, hkept, hcurrent, hnum, hmapped]
  rw [if_neg (not_not.mpr (by rcases hhighest with ⟨hone, -, -⟩ | hh' <;> omega)), if_pos, List.drop_left' (by simp),
    heq]
  · refine if_pos fun k hk => ?_
    rcases List.mem_append.mp hk with hk | hk
    · exact Nat.lt_of_lt_of_le (Nat.succ_pos _) (hafter.epochs hk).1
    · exact Nat.lt_of_lt_of_le (Nat.succ_pos _) (hkeys.epochs hk).1
  · refine ⟨by rw [hcount]; exact Nat.le_add_right _ _, fun k hk => ?_⟩
    rw [List.take_left' (by simp)] at hk
    obtain ⟨k', hk', rfl⟩ := List.mem_map.mp hk
    exact freeOld_of_lt (hzeros k' hk')

end Chain

/-! ## The keys that a side holds -/

variable {S : Setup} {co co' : CryptoOptions} {e n : Nat}

/-- The contexts hold the keys of their epochs: the one that is in use, the next ones, and perhaps the one before. What is
sent is never behind what is received. -/
structure Sound (S : Setup) (co : CryptoOptions) : Prop where
  type : co.epoch_key_type = S.key_type
  send_key : co.epoch_key_send = epochKey S.C S.e1_send co.encrypt.epoch
  send : Holds S.C S.key_type S.e1_send co.encrypt co.encrypt.epoch
  send_le : co.encrypt.epoch ≤ UINT16_MAX
  recv_key : co.epoch_key_recv = epochKey S.C S.e1_recv (co.decrypt.epoch + S.future_key_count)
  recv : Holds S.C S.key_type S.e1_recv co.decrypt co.decrypt.epoch
  recv_pos : 0 < co.decrypt.epoch
  recv_le : co.decrypt.epoch + S.future_key_count + 1 ≤ UINT16_MAX
  future : Consecutive S.C S.key_type S.e1_recv (co.decrypt.epoch + 1) co.epoch_data_keys_future
  count : co.epoch_data_keys_future.length = S.future_key_count
  retiring : co.epoch_retiring_data_receive_key.epoch ≠ 0 →
    Holds S.C S.key_type S.e1_recv co.epoch_retiring_data_receive_key co.epoch_retiring_data_receive_key.epoch ∧
      co.epoch_retiring_data_receive_key.epoch < co.decrypt.epoch
  ahead : co.decrypt.epoch ≤ co.encrypt.epoch

theorem Sound.send_pos (h : Sound S co) : 0 < co.encrypt.epoch := h.recv_pos.trans_le h.ahead

theorem Sound.send_epoch (h : Sound S co) : co.epoch_key_send.epoch = co.encrypt.epoch := by
  rw [h.send_key, epoch_epochKey S.send_first h.send_pos h.send_le]

/-! ## The first keys -/

theorem Sound.init (S : Setup) : ∃ co, S.init = some co ∧ Sound S co ∧ co.decrypt.epoch = 1 ∧
    co.epoch_retiring_data_receive_key.epoch = 0 ∧ co.pid_send = {} ∧
      co.pid_rec = packet_id_init_recv S.seq_backtrack S.time_backtrack := by
  have hcount := S.count_pos
  have hle := S.count_le
  have hrecv := holds_init S.C S.key_type S.recv_first Nat.one_pos (by decide)
  have hsend := holds_init S.C S.key_type S.send_first Nat.one_pos (by decide)
  rw [epochKey_one] at hrecv hsend
  obtain ⟨keys, hlength, hkeys, heq⟩ := @generate_spec S.C S.e1_recv []
    { encrypt := init_key_ctx (epoch_data_key_derive S.C S.e1_send S.key_type)
      decrypt := init_key_ctx (epoch_data_key_derive S.C S.e1_recv S.key_type)
      epoch_key_send := S.e1_send
      epoch_key_recv := S.e1_recv
      epoch_key_type := S.key_type
      aead_usage_limit := S.aead_usage_limit
      epoch_data_keys_future := List.replicate S.future_key_count {}
      pid_rec := packet_id_init_recv S.seq_backtrack S.time_backtrack }
    1 (List.replicate S.future_key_count {}) {} S.recv_first (List.append_nil _).symm
    (by rw [List.getLast?_replicate, if_neg hcount.ne']) (.inl ⟨S.recv_first, rfl, rfl⟩)
    (fun k hk => by rw [List.eq_of_mem_replicate hk, hrecv.epoch]; exact Nat.one_pos) trivial Nat.one_pos
    (by rw [hrecv.epoch]; rfl) rfl (by rw [List.length_replicate]; omega)
  rw [List.length_replicate] at hlength heq
  have hsome : S.init = (epoch_init_send_key_ctx S.C _).bind _ := if_pos ⟨S.send_first, S.recv_first⟩
  rw [epoch_init_send_key_ctx, if_pos (by rw [S.send_first]; exact Nat.zero_ne_one), Option.bind_some] at hsome
  refine ⟨_, hsome.trans heq, ⟨rfl, ?_, ?_, ?_, ?_, ?_, ?_, ?_, ?_, hlength, fun hne => absurd rfl hne, ?_⟩,
    hrecv.epoch, rfl,
    rfl, rfl⟩ <;> simp only [hsend.epoch, hrecv.epoch]
  · rfl
  · exact hsend
  · decide
  · exact hrecv
  · exact Nat.one_pos
  · omega
  · exact hkeys
  · exact le_refl _

/-! ## The send key -/

/-- The receiving side is the same. -/
structure SameReceiver (co co' : CryptoOptions) : Prop where
  decrypt : co'.decrypt = co.decrypt
  future : co'.epoch_data_keys_future = co.epoch_data_keys_future
  retiring : co'.epoch_retiring_data_receive_key = co.epoch_retiring_data_receive_key
  pid_retiring : co'.epoch_retiring_key_pid_recv = co.epoch_retiring_key_pid_recv
  pid_rec : co'.pid_rec = co.pid_rec

/-- A later send key is set up, and packet ids begin again. -/
theorem Sound.set_send_key (h : Sound S co) (hlt : co.encrypt.epoch < n) (hle : n ≤ UINT16_MAX) : ∃ co',
    epoch_init_send_key_ctx S.C
      { co with encrypt := free_key_ctx co.encrypt, epoch_key_send := epochKey S.C S.e1_send n } = some co' ∧
    Sound S co' ∧ SameReceiver co co' ∧ co'.encrypt.epoch = n ∧ co'.pid_send = {} := by
  have hn : 0 < n := h.send_pos.trans hlt
  have hepoch := epoch_epochKey (C := S.C) S.send_first hn hle
  have hsend := holds_init S.C S.key_type S.send_first hn hle
  refine ⟨_, if_pos (by simp only [hepoch]; exact hn.ne), ⟨h.type, ?_, ?_, ?_, h.recv_key, h.recv, h.recv_pos,
    h.recv_le,
    h.future, h.count, h.retiring, ?_⟩, ⟨rfl, rfl, rfl, rfl, rfl⟩, hepoch, rfl⟩
  · exact congrArg (epochKey S.C S.e1_send) hepoch.symm
  · simp only [h.type]
    exact hsend.epoch.symm ▸ hsend
  · exact hepoch.trans_le hle
  · exact (h.ahead.trans hlt.le).trans_eq hepoch.symm

theorem Sound.iterate_send_key (h : Sound S co) (hlt : co.encrypt.epoch < UINT16_MAX) : ∃ co',
    epoch_iterate_send_key S.C co = some co' ∧ Sound S co' ∧ SameReceiver co co' ∧
      co'.encrypt.epoch = co.encrypt.epoch + 1 ∧ co'.pid_send = {} := by
  rw [epoch_iterate_send_key, if_pos (h.send_epoch.trans_lt hlt), h.send_key, epochKey_succ h.send_pos]
  exact h.set_send_key (Nat.lt_succ_self _) hlt

/-- The send key follows the receive key. -/
theorem Sound.update_send_key (h : Sound S co) (hle : n ≤ UINT16_MAX) :
    ∃ co', updateSendKey S.C n co = some co' ∧ Sound S co' ∧
    SameReceiver co co' ∧ (co.encrypt.epoch < n ∧ co'.encrypt.epoch = n ∧ co'.pid_send = {} ∨
      n ≤ co.encrypt.epoch ∧ co'.encrypt = co.encrypt ∧ co'.pid_send = co.pid_send) := by
  unfold updateSendKey
  by_cases hbehind : co.encrypt.epoch < n
  · have hkey : (epoch_key_iterate S.C)^[n - co.epoch_key_send.epoch] co.epoch_key_send = epochKey S.C S.e1_send n := by
      rw [h.send_epoch, h.send_key, iterate_epochKey h.send_pos, Nat.add_sub_cancel' hbehind.le]
    rw [if_pos hbehind, hkey]
    obtain ⟨co', hsome, hsound, hsame, hepoch, hpid⟩ := h.set_send_key hbehind hle
    exact ⟨co', hsome, hsound, hsame, .inl ⟨hbehind, hepoch, hpid⟩⟩
  · rw [if_neg hbehind]
    exact ⟨co, rfl, h, ⟨rfl, rfl, rfl, rfl, rfl⟩, .inr ⟨not_lt.mp hbehind, rfl, rfl⟩⟩

/-- Sending never fails: a key is replaced only where there is a next one. -/
theorem Sound.check_send_iterate (h : Sound S co) : ∃ co', epoch_check_send_iterate S.C co = some co' ∧ Sound S co' ∧
    SameReceiver co co' ∧ (co'.encrypt.epoch = co.encrypt.epoch + 1 ∧ co'.pid_send = {} ∨
      co'.encrypt = co.encrypt ∧ co'.pid_send = co.pid_send) := by
  have hsame : SameReceiver co co := ⟨rfl, rfl, rfl, rfl, rfl⟩
  unfold epoch_check_send_iterate
  by_cases hlast : co.epoch_key_send.epoch = UINT16_MAX
  · rw [if_pos hlast]
    exact ⟨co, rfl, h, hsame, .inr ⟨rfl, rfl⟩⟩
  · rw [if_neg hlast]
    have hlt : co.encrypt.epoch < UINT16_MAX := lt_of_le_of_ne h.send_le (h.send_epoch ▸ hlast)
    obtain ⟨next, hnext, hsound, hsame', hepoch, hpid⟩ := h.iterate_send_key hlt
    simp only
    split_ifs with hlimited
    · rw [hnext, Option.bind_some, if_neg (by rw [hpid]; decide)]
      exact ⟨next, rfl, hsound, hsame', .inl ⟨hepoch, hpid⟩⟩
    · rw [Option.bind_some]
      split_ifs with hfull
      · exact ⟨next, hnext, hsound, hsame', .inl ⟨hepoch, hpid⟩⟩
      · exact ⟨co, rfl, h, hsame, .inr ⟨rfl, rfl⟩⟩

/-! ## The keys of packets -/

/-- The epochs whose packets can be opened. -/
def Usable (S : Setup) (co : CryptoOptions) (e : Nat) : Prop :=
  e = co.decrypt.epoch ∨ e ≠ 0 ∧ e = co.epoch_retiring_data_receive_key.epoch ∨
    co.decrypt.epoch < e ∧ e ≤ co.decrypt.epoch + S.future_key_count ∧ e + S.future_key_count + 1 ≤ UINT16_MAX

theorem Sound.lookup_isSome_iff (h : Sound S co) : (epoch_lookup_decrypt_key e co).isSome ↔ Usable S co e := by
  have hcount := S.count_le
  unfold epoch_lookup_decrypt_key Usable
  rw [h.count]
  split_ifs with hcurrent hretiring hfuture hlimit
  · exact ⟨fun _ => .inl hcurrent.symm, fun _ => rfl⟩
  · exact ⟨fun _ => .inr (.inl ⟨hretiring.2 ▸ hretiring.1, hretiring.2.symm⟩), fun _ => rfl⟩
  · refine ⟨fun hsome => Bool.noConfusion hsome, ?_⟩
    rintro (rfl | ⟨hne, rfl⟩ | ⟨-, -, hle⟩)
    · exact absurd rfl hcurrent
    · exact absurd ⟨hne, rfl⟩ hretiring
    · omega
  · exact ⟨fun _ => .inr (.inr ⟨hfuture.1, hfuture.2, by omega⟩), fun _ => rfl⟩
  · refine ⟨fun hsome => Bool.noConfusion hsome, ?_⟩
    rintro (rfl | ⟨hne, rfl⟩ | ⟨hlt, hle, -⟩)
    · exact absurd rfl hcurrent
    · exact absurd ⟨hne, rfl⟩ hretiring
    · exact absurd ⟨hlt, hle⟩ hfuture

/-- The key that is found is the one of the epoch. -/
theorem Sound.lookup_holds {slot : KeySlot} (h : Sound S co) (hslot : epoch_lookup_decrypt_key e co = some slot) :
    Holds S.C S.key_type S.e1_recv (co.key slot) e := by
  unfold epoch_lookup_decrypt_key at hslot
  split_ifs at hslot with hcurrent hretiring hfuture hlimit
  · cases hslot
    exact hcurrent ▸ h.recv
  · cases hslot
    exact hretiring.2 ▸ (h.retiring hretiring.1).1
  · cases hslot
    have hcount := h.count
    obtain ⟨before, ctx, after, hsplit, hlength, -, hctx, -⟩ := h.future.split hfuture.1 (by omega)
    rw [CryptoOptions.key, hsplit, ← hlength, List.getD_append_right _ _ _ _ (le_refl _), Nat.sub_self]
    exact hctx

/-! ## The keys of a later epoch -/

/-- The receiver moves to a later epoch, and the sender with it where it is behind. -/
structure Replaced (co : CryptoOptions) (n : Nat) (co' : CryptoOptions) : Prop where
  decrypt : co'.decrypt.epoch = n
  retiring : co'.epoch_retiring_data_receive_key = co.decrypt
  pid_retiring : co'.epoch_retiring_key_pid_recv = co.pid_rec
  pid_rec : co'.pid_rec = packet_id_init_recv co.pid_rec.seq_backtrack co.pid_rec.time_backtrack
  send : co.encrypt.epoch < n ∧ co'.encrypt.epoch = n ∧ co'.pid_send = {} ∨
    n ≤ co.encrypt.epoch ∧ co'.encrypt = co.encrypt ∧ co'.pid_send = co.pid_send

/-- The state in which new keys are generated. -/
theorem Sound.replace_eq (h : Sound S co) (hlt : co.decrypt.epoch < n)
    (hlt' : n ≤ co.decrypt.epoch + S.future_key_count)
    (hle : n ≤ UINT16_MAX) : ∃ mid before ctx after, Sound S mid ∧ SameReceiver co mid ∧
      (co.encrypt.epoch < n ∧ mid.encrypt.epoch = n ∧ mid.pid_send = {} ∨
        n ≤ co.encrypt.epoch ∧ mid.encrypt = co.encrypt ∧ mid.pid_send = co.pid_send) ∧
      (∀ k ∈ before ++ [{}], k.epoch < n) ∧ before.length + 1 + after.length = S.future_key_count ∧
      before.length + 1 = n - co.decrypt.epoch ∧ Holds S.C S.key_type S.e1_recv ctx n ∧
      Consecutive S.C S.key_type S.e1_recv (n + 1) after ∧
      epoch_replace_update_recv_key S.C n co = epoch_generate_future_receive_keys S.C { mid with
        epoch_retiring_data_receive_key := co.decrypt
        epoch_retiring_key_pid_recv := co.pid_rec
        pid_rec := packet_id_init_recv co.pid_rec.seq_backtrack co.pid_rec.time_backtrack
        decrypt := ctx
        epoch_data_keys_future := before ++ [{}] ++ after } := by
  obtain ⟨mid, hmid, hsound, hsame, hsend⟩ := h.update_send_key hle
  have hcount := h.count
  obtain ⟨before, ctx, after, hfuture, hlength, hbefore, hctx, hafter⟩ := h.future.split hlt (by omega)
  have hfind : co.epoch_data_keys_future.findIdx? (·.epoch = n) = some before.length := by
    rw [hfuture]
    exact hbefore.find (by omega) hctx.epoch
  rw [hfuture, List.length_append, List.length_cons] at hcount
  refine ⟨mid, before, ctx, after, hsound, hsame, hsend, fun k hk => ?_, by omega, by omega, hctx, hafter, ?_⟩
  · rcases List.mem_append.mp hk with hk | hk
    · have hepochs := hbefore.epochs hk
      omega
    · rw [List.mem_singleton.mp hk]
      exact Nat.zero_lt_of_lt hlt
  · rw [epoch_replace_update_recv_key, hfind]
    simp only [hmid, Option.bind_some, packet_id_move_recv, hsame.decrypt, hsame.pid_rec, hsame.future, hfuture]
    simp

theorem Sound.replace_spec (h : Sound S co) (hlt : co.decrypt.epoch < n)
    (hlt' : n < co.decrypt.epoch + S.future_key_count)
    (hle : n + S.future_key_count + 1 ≤ UINT16_MAX) :
    ∃ co', epoch_replace_update_recv_key S.C n co = some co' ∧ Sound S co' ∧ Replaced co n co' := by
  obtain ⟨mid, before, ctx, after, hmid, hsame, hsend, hold, hcount, hplace, hctx, hafter, heq⟩ :=
    h.replace_eq hlt hlt'.le (by omega)
  have hsum : co.decrypt.epoch + S.future_key_count = n + after.length := by omega
  have hne : after ≠ [] := by
    rintro rfl
    rw [List.length_nil] at hsum
    omega
  obtain ⟨highest, hlast, hhighest⟩ := hafter.getLast? hne
  rw [heq]
  obtain ⟨keys, hlength, hkeys, hsome⟩ := @generate_spec S.C S.e1_recv after
    { mid with
      epoch_retiring_data_receive_key := co.decrypt
      epoch_retiring_key_pid_recv := co.pid_rec
      pid_rec := packet_id_init_recv co.pid_rec.seq_backtrack co.pid_rec.time_backtrack
      decrypt := ctx
      epoch_data_keys_future := before ++ [{}] ++ after }
    (n + after.length) (before ++ [({} : KeyCtx)]) highest S.recv_first rfl (by rw [List.getLast?_append, hlast]; rfl)
    (.inr (by omega)) (by simpa only [hctx.epoch] using hold) (by simpa only [hctx.epoch, hmid.type] using hafter)
      (by omega)
    (by simp only [hctx.epoch]) (by simp only [← hsum, ← hsame.decrypt]; exact hmid.recv_key)
    (by rw [List.length_append, List.length_singleton]; omega)
  rw [List.length_append, List.length_singleton] at hlength hsome
  have hahead : n ≤ mid.encrypt.epoch := by
    rcases hsend with ⟨-, hepoch, -⟩ | ⟨hle', hencrypt, -⟩
    · exact hepoch.ge
    · rwa [hencrypt]
  refine ⟨_, hsome, ⟨hmid.type, hmid.send_key, hmid.send, hmid.send_le, ?_, ?_, ?_, ?_, ?_, ?_, fun _ => ?_, ?_⟩,
    ⟨hctx.epoch, rfl, rfl, rfl, hsend⟩⟩ <;> simp only [hctx.epoch]
  · congr 1
    omega
  · exact hctx
  · exact Nat.zero_lt_of_lt hlt
  · exact hle
  · refine consecutive_append.mpr ⟨hafter, ?_⟩
    rw [Nat.add_right_comm, ← hmid.type]
    exact hkeys
  · rw [List.length_append]
    omega
  · exact ⟨h.recv, hlt⟩
  · exact hahead

/-- A packet with the last one of the next keys makes an assertion fail: its place is empty when the highest epoch is
looked up. -/
theorem Sound.replace_highest (h : Sound S co) :
    epoch_replace_update_recv_key S.C (co.decrypt.epoch + S.future_key_count) co = none := by
  have hpos := S.count_pos
  have hle := h.recv_le
  obtain ⟨mid, before, ctx, after, hmid, hsame, -, -, hcount, hplace, -, -, heq⟩ :=
    h.replace_eq (n := co.decrypt.epoch + S.future_key_count) (by omega) (le_refl _) (by omega)
  have hnil : after = [] := List.length_eq_zero_iff.mp (by omega)
  have hepoch : mid.epoch_key_recv.epoch = co.decrypt.epoch + S.future_key_count := by
    rw [hmid.recv_key, hsame.decrypt, epoch_epochKey S.recv_first (by omega) (by omega)]
  rw [heq, epoch_generate_future_receive_keys, hnil, List.append_nil, List.getLast?_concat]
  refine if_pos ?_
  rw [hepoch]
  have hrecv := h.recv_pos
  rintro (hone | hzero)
  · omega
  · exact absurd hzero (by simp only; omega)

end AllInSafe.Epoch
